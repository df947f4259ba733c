/-!
# Occurrences

Whether one text occurs inside another, as a run of neighbouring characters.
-/

namespace SqlMapper.Text

/-- The characters of `part` occur one after another. -/
def occursIn (part : List Char) : List Char → Bool
  | [] => part.isEmpty
  | c :: cs => part.isPrefixOf (c :: cs) || occursIn part cs

/-- The text `part` occurs in the other one. -/
def contains (part s : String) : Bool := occursIn part.toList s.toList

end SqlMapper.Text
