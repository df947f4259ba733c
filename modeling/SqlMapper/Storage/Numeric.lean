import SqlMapper.Number.FloatText
import SqlMapper.Storage.Cell

/-!
# Cells beside a column of integers

A cell that meets a column of integers is taken as a number where that loses nothing: text that
denotes a number becomes it, and a number without a fraction becomes an integer. All other text, and
every blob, stands above all numbers.
-/

namespace SqlMapper.Storage

/-- What a cell is beside a column of integers. -/
inductive Numeric where
  | missing
  | integer (n : Integer .int64)
  | real (x : Binary .double)
  /-- Above all numbers. -/
  | above

namespace Numeric

/-- The integer that a number equals, if it equals one strictly between the outermost integers. -/
def wholePart? (x : Binary .double) : Option (Integer .int64) :=
  match x.value with
  | .finite negative significand exponent =>
    let r := Ratio.scaled significand exponent
    if r.num % r.den = 0 ∧ r.num / r.den < twoTo 63 - 1 then
      Integer.ofInt? .int64 (if negative then -(r.num / r.den : Nat) else (r.num / r.den : Nat))
    else none
  | _ => none

/-- A number, as an integer where it is one. -/
def ofReal (x : Binary .double) : Numeric :=
  match x.value with
  | .nan => missing
  | _ => (wholePart? x).elim (real x) integer

/-- An ASCII blank. -/
def isSpace (c : Char) : Bool := c.toNat == 32 || (9 ≤ c.toNat && c.toNat ≤ 13)

/-- The text without its sign, and whether the sign is a minus. -/
def splitSign : List Char → Bool × List Char
  | '-' :: cs => (true, cs)
  | '+' :: cs => (false, cs)
  | cs => (false, cs)

/-- The number that a text denotes between blanks. -/
def ofChars (cs : List Char) : Numeric :=
  let trimmed := ((cs.dropWhile isSpace).reverse.dropWhile isSpace).reverse
  match Numeral.read .int64 (String.ofList trimmed) with
  | .ok n => integer n
  | .error _ =>
    let (negative, digits) := splitSign trimmed
    (Numeral.scientific? digits).elim above fun s =>
      ofReal (Binary.ofScientific .double negative s)

/-- What a cell is beside a column of integers. -/
def ofCell : Cell → Numeric
  | .null => missing
  | .integer n => integer n
  | .real x => ofReal x
  | .text bytes => (Text.decodeUtf8 bytes).toOption.elim above fun s => ofChars s.toList
  | .blob _ => above

/-- How an integer lies to a number. -/
def orderToReal? (n : Int) (x : Binary .double) : Option Ordering :=
  match x.value with
  | .nan => none
  | .infinite negative => some (if negative then .gt else .lt)
  | .finite negative significand exponent =>
    let r := Ratio.scaled significand exponent
    some (compare (n * r.den) (if negative then -(r.num : Int) else r.num))

/-- How an integer lies to a cell. Nothing is known of a missing one. -/
def order? (n : Int) : Numeric → Option Ordering
  | missing => none
  | integer m => some (compare n m.val)
  | real x => orderToReal? n x
  | above => some .lt

/-- The integer is known to be at least the lower and at most the upper cell. -/
def isBetween (lower upper : Numeric) (n : Int) : Bool :=
  (order? n lower).any (· != .lt) && (order? n upper).any (· != .gt)

end Numeric

end SqlMapper.Storage
