/-!
# Rounding a quotient
-/

namespace SqlMapper

/-- Which neighbour an exact half goes to. -/
inductive Tie where
  /-- The neighbour farther from zero. -/
  | up
  /-- The even neighbour. -/
  | even
  deriving DecidableEq, Repr

/-- The integer nearest to `num / den`, an exact half going as `tie` says. -/
def roundDiv (tie : Tie) (num den : Nat) : Nat :=
  let q := num / den
  let r := num % den
  if 2 * r < den then q
  else if den < 2 * r then q + 1
  else match tie with
    | .up => q + 1
    | .even => q + q % 2

end SqlMapper
