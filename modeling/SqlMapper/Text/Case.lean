/-!
# Letter case of names

Names of columns, labels and tables compare without regard to the case of the letters `A` to `Z`.
Every other letter keeps its case: `É` and `é` are different names.
-/

namespace SqlMapper.Text

/-- The text with `A` to `Z` replaced by `a` to `z`. -/
def lowerCase (s : String) : String := String.ofList (s.toList.map Char.toLower)

/-- The text with `a` to `z` replaced by `A` to `Z`. -/
def upperCase (s : String) : String := String.ofList (s.toList.map Char.toUpper)

/-- Two names are the same when they differ at most in the case of ASCII letters. -/
def sameName (a b : String) : Bool := lowerCase a == lowerCase b

theorem sameName_iff {a b : String} : sameName a b = true ↔ lowerCase a = lowerCase b := by
  simp [sameName]

@[simp] theorem sameName_self (a : String) : sameName a a = true := by simp [sameName]

theorem sameName_comm (a b : String) : sameName a b = sameName b a := by
  unfold sameName
  exact Bool.beq_comm

theorem sameName_trans {a b c : String} (hab : sameName a b = true) (hbc : sameName b c = true) :
    sameName a c = true := by
  rw [sameName_iff] at *
  exact hab.trans hbc

end SqlMapper.Text
