import SqlMapper.Number.Power
import SqlMapper.Number.Rounding

/-!
# Binary floating point numbers

A number of the single or double precision interchange format is its word of bits. It is decoded
to an exact value, and an exact quotient is rounded to the nearest number, ties to the even one.
No machine arithmetic takes part, so every result is a fact about natural numbers.
-/

namespace SqlMapper

/-- The two interchange formats. -/
inductive Precision where
  | single
  | double
  deriving DecidableEq, Repr

namespace Precision

/-- Stored bits of the significand. -/
def fractionBits : Precision → Nat
  | single => 23
  | double => 52

def exponentBits : Precision → Nat
  | single => 8
  | double => 11

/-- Bits of a word. -/
def width (p : Precision) : Nat := 1 + p.exponentBits + p.fractionBits

/-- The word of positive infinity, which is above the word of every finite magnitude. -/
def infinityWord (p : Precision) : Nat := (twoTo p.exponentBits - 1) * twoTo p.fractionBits

/-- The bit that makes a word negative. -/
def signWord (p : Precision) : Nat := twoTo (p.width - 1)

/-- The exponent of the smallest positive number `2 ^ leastExponent`. -/
def leastExponent (p : Precision) : Int :=
  2 - twoTo (p.exponentBits - 1) - p.fractionBits

end Precision

/-- A floating point number, given by its word. -/
structure Binary (p : Precision) where
  word : Nat
  word_lt : word < twoTo p.width
  deriving DecidableEq

/-- An exact value as a quotient of natural numbers, the denominator not zero. -/
structure Ratio where
  num : Nat
  den : Nat
  deriving DecidableEq, Repr

namespace Ratio

/-- The quotient `m * 2 ^ e`. -/
def scaled (m : Nat) (e : Int) : Ratio :=
  if 0 ≤ e then ⟨m * twoTo e.toNat, 1⟩ else ⟨m, twoTo (-e).toNat⟩

/-- The quotient `m * 10 ^ e`. -/
def decimal (m : Nat) (e : Int) : Ratio :=
  if 0 ≤ e then ⟨m * tenTo e.toNat, 1⟩ else ⟨m, tenTo (-e).toNat⟩

def add (a b : Ratio) : Ratio := ⟨a.num * b.den + b.num * a.den, a.den * b.den⟩

def mul (a b : Ratio) : Ratio := ⟨a.num * b.num, a.den * b.den⟩

/-- Quotient by a value that is not zero. -/
def div (a b : Ratio) : Ratio := ⟨a.num * b.den, a.den * b.num⟩

/-- The `e` with `2 ^ e ≤ r < 2 ^ (e + 1)`, for a value that is not zero. -/
def log2 (r : Ratio) : Int :=
  let a := r.num.log2
  let b := r.den.log2
  let reached := if b ≤ a then r.den * twoTo (a - b) ≤ r.num else r.den ≤ r.num * twoTo (b - a)
  if reached then (a : Int) - b else (a : Int) - b - 1

end Ratio

/-- What a word stands for. A finite number is `significand * 2 ^ exponent` with its sign. -/
inductive BinaryValue where
  | nan
  | infinite (negative : Bool)
  | finite (negative : Bool) (significand : Nat) (exponent : Int)
  deriving DecidableEq, Repr

namespace Binary

variable {p : Precision}

/-- The word has the sign bit. -/
def negative (x : Binary p) : Bool := p.signWord ≤ x.word

/-- The word without its sign bit. -/
def magnitude (x : Binary p) : Nat := x.word % p.signWord

/-- What the word stands for. -/
def value (x : Binary p) : BinaryValue :=
  let field := x.magnitude / twoTo p.fractionBits
  let fraction := x.magnitude % twoTo p.fractionBits
  if p.infinityWord ≤ x.magnitude then
    if x.magnitude = p.infinityWord then .infinite x.negative else .nan
  else if field = 0 then .finite x.negative fraction p.leastExponent
  else .finite x.negative (twoTo p.fractionBits + fraction) (p.leastExponent + (field - 1 : Nat))

/-- The number with the magnitude word `m`, infinity when `m` is beyond it. -/
def ofMagnitude (p : Precision) (negative : Bool) (m : Nat) : Binary p where
  word := (if negative then p.signWord else 0) + min m p.infinityWord
  word_lt := by
    have hLimit : p.signWord + p.infinityWord < twoTo p.width := by cases p <;> decide
    have hMin : min m p.infinityWord ≤ p.infinityWord := Nat.min_le_right _ _
    split <;> omega

def zero (p : Precision) (negative : Bool) : Binary p := ofMagnitude p negative 0

def infinity (p : Precision) (negative : Bool) : Binary p := ofMagnitude p negative p.infinityWord

/-- The number that is none. Words of that kind differ in ways that nothing here looks at. -/
def nan (p : Precision) : Binary p where
  word := p.infinityWord + twoTo (p.fractionBits - 1)
  word_lt := by cases p <;> decide

/-- The number nearest to an exact value, ties to the even word. -/
def ofRatio (p : Precision) (negative : Bool) (r : Ratio) : Binary p :=
  if r.num = 0 then zero p negative
  else
    let exponent := max (r.log2 - p.fractionBits) p.leastExponent
    let significand :=
      if 0 ≤ exponent then roundDiv .even r.num (r.den * twoTo exponent.toNat)
      else roundDiv .even (r.num * twoTo (-exponent).toNat) r.den
    ofMagnitude p negative
      ((exponent - p.leastExponent).toNat * twoTo p.fractionBits + significand)

/-- The number nearest to an integer. -/
def ofInt (p : Precision) (n : Int) : Binary p := ofRatio p (n < 0) ⟨n.natAbs, 1⟩

/-- The nearest number of another precision. -/
def convert (q : Precision) (x : Binary p) : Binary q :=
  match x.value with
  | .nan => nan q
  | .infinite negative => infinity q negative
  | .finite negative significand exponent => ofRatio q negative (Ratio.scaled significand exponent)

/-- Equality of numbers: the zeros are equal, and what is no number equals nothing. -/
def same (x y : Binary p) : Bool :=
  match x.value with
  | .nan => false
  | _ => x.word == y.word || (x.magnitude == 0 && y.magnitude == 0)

end Binary

end SqlMapper
