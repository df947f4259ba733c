import SqlMapper.Number.Integer

/-!
# Reading integers from text

An integer text is an optional sign and one or more ASCII digits, nothing else. Kinds without
negative numbers have no minus sign. The first fault from the left decides the error.
-/

namespace SqlMapper

/-- Why a text is not an integer of the wanted kind. -/
inductive NumeralError where
  | empty
  | invalidDigit
  | tooLarge
  | tooSmall
  deriving DecidableEq, Repr

namespace NumeralError

def message : NumeralError → String
  | empty => "cannot parse integer from empty string"
  | invalidDigit => "invalid digit found in string"
  | tooLarge => "number too large to fit in target type"
  | tooSmall => "number too small to fit in target type"

end NumeralError

namespace Numeral

def digit? (c : Char) : Option Nat := if c.isDigit then some (c.toNat - '0'.toNat) else none

/-- Reads digits onto `value`, failing with `beyond` as soon as the value passes `limit`. -/
def readDigits (limit : Nat) (beyond : NumeralError) (value : Nat) :
    List Char → Except NumeralError Nat
  | [] => .ok value
  | c :: cs =>
    match digit? c with
    | none => .error .invalidDigit
    | some d =>
      if 10 * value + d ≤ limit then readDigits limit beyond (10 * value + d) cs
      else .error beyond

/-- At least one digit, with a value of at most `limit`. -/
def readMagnitude (limit : Nat) (beyond : NumeralError) :
    List Char → Except NumeralError Nat
  | [] => .error .invalidDigit
  | c :: cs => readDigits limit beyond 0 (c :: cs)

/-- The number that a text denotes in the kind. -/
def readInt (k : IntegerKind) : List Char → Except NumeralError Int
  | [] => .error .empty
  | '+' :: cs => (readMagnitude k.greatest.toNat .tooLarge cs).map Int.ofNat
  | '-' :: cs =>
    if k.signed then
      (readMagnitude (-k.least).toNat .tooSmall cs).map fun n => -Int.ofNat n
    else .error .invalidDigit
  | c :: cs => (readMagnitude k.greatest.toNat .tooLarge (c :: cs)).map Int.ofNat

/-- The integer of the kind that a text denotes. -/
def read (k : IntegerKind) (s : String) : Except NumeralError (Integer k) :=
  match readInt k s.toList with
  | .error e => .error e
  | .ok n =>
    match Integer.ofInt? k n with
    | some x => .ok x
    | none => .error .tooLarge

/-- The digits of `n` in base ten, with leading zeros up to `width`. -/
def padded (width n : Nat) : String :=
  let digits := Nat.toDigits 10 n
  String.ofList (List.replicate (width - digits.length) '0' ++ digits)

end Numeral

end SqlMapper
