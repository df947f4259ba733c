import SqlMapper.Text.Blank

/-!
# Shortened text for messages

Statements and unreadable cells are shown in messages with at most 500 bytes of UTF-8, and never
cut inside a character.
-/

namespace SqlMapper.Text

/-- The most bytes of a text that a message keeps before its ellipsis. -/
def shownBytes : Nat := 497

/-- The longest run of leading characters that fits into `limit` bytes of UTF-8. -/
def fitting (limit : Nat) : List Char → List Char
  | [] => []
  | c :: cs => if c.utf8Size ≤ limit then c :: fitting (limit - c.utf8Size) cs else []

/-- The text as a message shows it: what fits into `shownBytes` bytes without blanks at its end,
followed by three dots exactly when something did not fit. -/
def truncate (s : String) : String :=
  let kept := fitting shownBytes s.toList
  String.ofList (dropBlanksEnd kept) ++ (if kept.length < s.length then "..." else "")

end SqlMapper.Text
