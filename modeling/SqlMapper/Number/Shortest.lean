import SqlMapper.Number.Binary

/-!
# The fewest digits that read back

Every finite number other than zero stands for the interval of values that round to it. Its
shortest decimal is the point of the coarsest decimal grid that lies in this interval, of two such
points the nearer one. The interval has its ends exactly when the significand is even.
-/

namespace SqlMapper

/-- A decimal `digits * 10 ^ exponent`. -/
structure Scientific where
  digits : Nat
  exponent : Int
  deriving DecidableEq, Repr

namespace Scientific

/-- Moves zeros at the end of the digits into the exponent; `fuel` bounds their number. -/
def stripFrom : (fuel : Nat) → Scientific → Scientific
  | 0, s => s
  | fuel + 1, s =>
    if s.digits ≠ 0 ∧ s.digits % 10 = 0 then stripFrom fuel ⟨s.digits / 10, s.exponent + 1⟩ else s

/-- The same decimal without zeros at the end of its digits. -/
def strip (s : Scientific) : Scientific := stripFrom s.digits.log2 s

end Scientific

/-- The values that round to a number: between `low / den` and `high / den`, around `mid / den`. -/
structure Rounds where
  low : Nat
  mid : Nat
  high : Nat
  den : Nat
  closed : Bool
  deriving DecidableEq, Repr

namespace Rounds

/-- The interval of `significand * 2 ^ exponent`. Below a power of two numbers are twice as dense,
so the lower end is then half as far away. -/
def around (p : Precision) (significand : Nat) (exponent : Int) : Rounds :=
  let below := if significand = twoTo p.fractionBits ∧ p.leastExponent < exponent then 1 else 2
  let quarter := exponent - 2
  let up := twoTo quarter.toNat
  { low := (4 * significand - below) * up
    mid := 4 * significand * up
    high := (4 * significand + 2) * up
    den := twoTo (-quarter).toNat
    closed := significand % 2 == 0 }

/-- The `e` with `10 ^ e ≤ mid / den < 10 ^ (e + 1)`. -/
def magnitude (r : Rounds) : Int :=
  if r.den ≤ r.mid then ((Nat.toDigits 10 (r.mid / r.den)).length : Int) - 1
  else
    let length := (Nat.toDigits 10 (r.den / r.mid)).length
    if r.mid * tenTo (length - 1) = r.den then 1 - (length : Int) else -(length : Int)

/-- The grid point `n`, counted in steps of `step / unit`, lies in the interval. -/
def admits (r : Rounds) (unit step n : Nat) : Bool :=
  if r.closed then r.low * unit ≤ n * step && n * step ≤ r.high * unit
  else r.low * unit < n * step && n * step < r.high * unit

/-- The point of the grid of step `10 ^ exponent` that stands for the interval, if there is one:
one of the two neighbours of the middle, the nearer one when both lie inside. -/
def gridPoint? (tie : Tie) (r : Rounds) (exponent : Int) : Option Nat :=
  let unit := tenTo (-exponent).toNat
  let step := r.den * tenTo exponent.toNat
  let n := r.mid * unit / step
  match r.admits unit step n, r.admits unit step (n + 1) with
  | true, true => some (roundDiv tie (r.mid * unit) step)
  | true, false => some n
  | false, true => some (n + 1)
  | false, false => none

/-- Tries grids of step `10 ^ exponent`, `10 ^ (exponent - 1)` and so on, `fuel` of them. -/
def search (tie : Tie) (r : Rounds) : (fuel : Nat) → (exponent : Int) → Option Scientific
  | 0, _ => none
  | fuel + 1, exponent =>
    match r.gridPoint? tie exponent with
    | some n => some ⟨n, exponent⟩
    | none => search tie r fuel (exponent - 1)

end Rounds

/-- The shortest decimal that reads back as `significand * 2 ^ exponent`. Seventeen digits are
enough for either precision; zero has no shortest decimal and gives zero. -/
def shortest (tie : Tie) (p : Precision) (significand : Nat) (exponent : Int) : Scientific :=
  let r := Rounds.around p significand exponent
  match r.search tie 18 r.magnitude with
  | some s => s.strip
  | none => ⟨0, 0⟩

end SqlMapper
