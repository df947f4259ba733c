import SqlMapper.Number.Numeral
import SqlMapper.Number.Power
import SqlMapper.Number.Rounding

/-!
# Decimals

A decimal is a coefficient of at most 96 bits over a power of ten of at most 28 places. The scale is
part of the number: `1.5` and `1.50` are numerically equal and print differently.
-/

namespace SqlMapper

/-- The first coefficient that does not fit. -/
def coefficientLimit : Nat := 79228162514264337593543950336

def scaleLimit : Nat := 28

/-- The number `± coefficient / 10 ^ scale`. -/
structure Decimal where
  negative : Bool
  coefficient : Nat
  scale : Nat
  coefficient_lt : coefficient < coefficientLimit
  scale_le : scale ≤ scaleLimit
  deriving DecidableEq

/-- Why a text is not a decimal. -/
inductive DecimalError where
  | empty
  | noDigits
  | unknownCharacter
  | twoPoints
  | leadingSeparator
  | tooManyDigits
  | roundedBeyond
  | exponent
  | scaleBeyond (scale : Nat)
  | beyondGreatest
  deriving DecidableEq, Repr

namespace DecimalError

def message : DecimalError → String
  | empty => "Invalid decimal: empty"
  | noDigits => "Invalid decimal: no digits found"
  | unknownCharacter => "Invalid decimal: unknown character"
  | twoPoints => "Invalid decimal: two decimal points"
  | leadingSeparator => "Invalid decimal: must start lead with a number"
  | tooManyDigits => "Invalid decimal: overflow from too many digits"
  | roundedBeyond => "Invalid decimal: overflow from mantissa after rounding"
  | exponent => "Failed to parse"
  | scaleBeyond scale =>
    "Scale exceeds the maximum precision allowed: " ++ toString scale ++ " > " ++ toString scaleLimit
  | beyondGreatest => "Number exceeds maximum value that can be represented."

end DecimalError

namespace Decimal

/-- The decimal with these parts, none when they are out of bounds. -/
def ofParts? (negative : Bool) (coefficient scale : Nat) : Option Decimal :=
  if h : coefficient < coefficientLimit ∧ scale ≤ scaleLimit then
    some ⟨negative, coefficient, scale, h.1, h.2⟩
  else none

/-- Zero without places. -/
def zero : Decimal := ⟨false, 0, 0, by decide, by decide⟩

/-- An integer of any kind, without places. -/
def ofInteger {k : IntegerKind} (x : Integer k) : Decimal where
  negative := x.val < 0
  coefficient := x.val.natAbs
  scale := 0
  coefficient_lt := by
    have h := x.holds
    unfold IntegerKind.Holds at h
    unfold coefficientLimit
    cases k <;>
      simp only [IntegerKind.least, IntegerKind.greatest] at h <;> omega
  scale_le := Nat.zero_le _

/-- Numeric equality, whatever the scales. The two zeros are equal. -/
def same (a b : Decimal) : Bool :=
  a.coefficient * tenTo b.scale == b.coefficient * tenTo a.scale &&
    (a.negative == b.negative || a.coefficient == 0)

/-- The text with exactly `scale` places. -/
def text (d : Decimal) : String :=
  let digits := (Numeral.padded (d.scale + 1) d.coefficient).toList
  let whole := digits.take (digits.length - d.scale)
  let places := digits.drop (digits.length - d.scale)
  String.ofList ((if d.negative then ['-'] else []) ++ whole ++
    (if places.isEmpty then [] else '.' :: places))

/-- What has been read of a decimal. -/
structure Progress where
  negative : Bool
  pointSeen : Bool
  digitSeen : Bool
  coefficient : Nat
  scale : Nat

namespace Progress

/-- The decimal read so far. A zero loses its sign. -/
def finish (s : Progress) : Except DecimalError Decimal :=
  if !s.digitSeen then .error .noDigits
  else
    match ofParts? (s.negative && s.coefficient != 0) s.coefficient s.scale with
    | some d => .ok d
    | none => .error .beyondGreatest

/-- The fault of a character that cannot stand behind the point. -/
def strange (c : Char) : DecimalError := if c = '.' then .twoPoints else .unknownCharacter

/-- Ends before the digit `d`, which no longer fits: a half or more rounds away from zero. -/
def roundBy (s : Progress) (d : Nat) : Except DecimalError Decimal :=
  if d < 5 then s.finish
  else if s.coefficient + 1 < coefficientLimit then
    { s with coefficient := s.coefficient + 1 }.finish
  else if s.scale = 0 then .error .roundedBeyond
  else { s with coefficient := (s.coefficient + 5) / 10, scale := s.scale - 1 }.finish

/-- What follows the digit that rounds: digits and separators only, which do not count. -/
def checkRest : List Char → Except DecimalError Unit
  | [] => .ok ()
  | c :: cs =>
    if (Numeral.digit? c).isSome ∨ c = '_' then checkRest cs else .error (strange c)

/-- Ends where no further digit fits: the next one, behind any separators, rounds. -/
def round (s : Progress) : List Char → Except DecimalError Decimal
  | [] => s.finish
  | c :: cs =>
    match Numeral.digit? c with
    | some d => do
      checkRest cs
      s.roundBy d
    | none => if c = '_' then s.round cs else .error (strange c)

/-- Reads digits, one point and separators between or after digits. -/
def scan (s : Progress) : List Char → Except DecimalError Decimal
  | [] => s.finish
  | c :: cs =>
    match Numeral.digit? c with
    | some d =>
      let coefficient := 10 * s.coefficient + d
      if coefficientLimit ≤ coefficient then
        if s.pointSeen then s.round (c :: cs) else .error .tooManyDigits
      else
        let s := { s with
          digitSeen := true
          coefficient
          scale := if s.pointSeen then s.scale + 1 else s.scale }
        if s.pointSeen ∧ scaleLimit ≤ s.scale then s.round cs else s.scan cs
    | none =>
      if c = '.' then
        if s.pointSeen then .error .twoPoints else { s with pointSeen := true }.scan cs
      else if c = '_' then
        if s.digitSeen then s.scan cs else .error .leadingSeparator
      else .error .unknownCharacter

end Progress

/-- Reads a decimal without exponent: an optional sign, digits with at most one point. Digits
beyond the limits are rounded away, a half going away from zero. -/
def readPlain (cs : List Char) : Except DecimalError Decimal :=
  match cs with
  | [] => .error .empty
  | '-' :: cs => Progress.scan ⟨true, false, false, 0, 0⟩ cs
  | '+' :: cs => Progress.scan ⟨false, false, false, 0, 0⟩ cs
  | cs => Progress.scan ⟨false, false, false, 0, 0⟩ cs

/-- The digits of an exponent, with an optional plus sign. -/
def exponentDigits (cs : List Char) : Except DecimalError Nat :=
  match Numeral.readInt .uint32 cs with
  | .ok n => .ok n.toNat
  | .error _ => .error .exponent

/-- Moves the point of `d` by an exponent. Places beyond the limit are rounded away, a half going
away from zero; the result has no places when the point leaves the digits to the right. -/
def shift (d : Decimal) : List Char → Except DecimalError Decimal
  | '-' :: cs => do
    let e ← exponentDigits cs
    if scaleLimit < e then throw (.scaleBeyond e)
    else
      let excess := d.scale + e - scaleLimit
      (ofParts? d.negative (roundDiv .up d.coefficient (tenTo excess)) (d.scale + e - excess)).elim
        (.error .beyondGreatest) .ok
  | cs => do
    let e ← exponentDigits cs
    if e ≤ d.scale then
      (ofParts? d.negative d.coefficient (d.scale - e)).elim (.error .beyondGreatest) .ok
    else if scaleLimit < e then .error (.scaleBeyond e)
    else
      (ofParts? d.negative (d.coefficient * tenTo (e - d.scale)) 0).elim
        (.error .beyondGreatest) .ok

/-- The decimal that a text denotes, with an optional exponent after `e` or `E`. -/
def read (s : String) : Except DecimalError Decimal :=
  let isMark (c : Char) : Bool := c == 'e' || c == 'E'
  match s.toList.dropWhile (!isMark ·) with
  | [] => readPlain s.toList
  | _ :: exponent => do
    let d ← readPlain (s.toList.takeWhile (!isMark ·))
    d.shift exponent

end Decimal

end SqlMapper
