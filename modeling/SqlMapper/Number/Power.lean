/-!
# Powers of two and of ten

The powers that words and decimals are measured by.
-/

namespace SqlMapper

/-- Two to the power `n`. -/
def twoTo (n : Nat) : Nat := Nat.pow 2 n

/-- Ten to the power `n`. -/
def tenTo (n : Nat) : Nat := Nat.pow 10 n

@[simp] theorem twoTo_zero : twoTo 0 = 1 := rfl

theorem twoTo_succ (n : Nat) : twoTo (n + 1) = 2 * twoTo n := Nat.mul_comm _ _

theorem twoTo_add (m n : Nat) : twoTo (m + n) = twoTo m * twoTo n := by
  induction n with
  | zero => simp
  | succ n ih => rw [← Nat.add_assoc, twoTo_succ, twoTo_succ, ih, Nat.mul_left_comm]

@[simp] theorem tenTo_zero : tenTo 0 = 1 := rfl

end SqlMapper
