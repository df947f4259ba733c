/-!
# Blank characters

The characters with the Unicode property `White_Space`, and trimming by them.
-/

namespace SqlMapper.Text

/-- The character has the Unicode property `White_Space`. -/
def isBlank (c : Char) : Bool :=
  let n := c.toNat
  (9 ≤ n && n ≤ 13) || n == 0x20 || n == 0x85 || n == 0xA0 || n == 0x1680
    || (0x2000 ≤ n && n ≤ 0x200A) || n == 0x2028 || n == 0x2029 || n == 0x202F
    || n == 0x205F || n == 0x3000

/-- The characters without the blanks at their end. -/
def dropBlanksEnd (cs : List Char) : List Char := (cs.reverse.dropWhile isBlank).reverse

/-- The text without the blanks at its end. -/
def trimEnd (s : String) : String := String.ofList (dropBlanksEnd s.toList)

/-- The text without the blanks at both ends. -/
def trim (s : String) : String := String.ofList (dropBlanksEnd (s.toList.dropWhile isBlank))

/-- Nothing but blanks is lost at the end. -/
theorem dropBlanksEnd_append_blanks (cs : List Char) :
    ∃ blanks, blanks.all isBlank = true ∧ cs = dropBlanksEnd cs ++ blanks := by
  refine ⟨(cs.reverse.takeWhile isBlank).reverse, ?_, ?_⟩
  · rw [List.all_reverse]
    exact List.all_takeWhile
  · unfold dropBlanksEnd
    rw [← List.reverse_append, List.takeWhile_append_dropWhile, List.reverse_reverse]

end SqlMapper.Text
