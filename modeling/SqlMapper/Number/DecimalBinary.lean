import SqlMapper.Number.Binary
import SqlMapper.Number.Decimal

/-!
# Between decimals and floating point numbers

A number is turned into a decimal with about as many significant digits as its precision
guarantees. The factor of two in the number becomes factors of five and ten inside a coefficient of
96 bits, which loses digits only when the coefficient is full. A decimal is turned into a number by
way of its whole and its fractional part.
-/

namespace SqlMapper

/-- A coefficient with a power of ten. -/
structure Tens where
  coefficient : Nat
  power : Int

namespace Tens

/-- Multiplies by `5 ^ fives` in steps. While a step would overflow, or the coefficient is even,
the step halves instead and raises the power of ten: `5 = 10 / 2`. -/
def timesFives : (fives : Nat) → Tens → Tens
  | 0, t => t
  | fives + 1, t =>
    if t.coefficient % 2 = 0 ∨ coefficientLimit ≤ 5 * t.coefficient then
      timesFives fives ⟨t.coefficient / 2, t.power + 1⟩
    else timesFives fives ⟨5 * t.coefficient, t.power⟩

/-- Divides by `5 ^ fives` in steps. While there is room, a step doubles instead and lowers the
power of ten. -/
def overFives : (fives : Nat) → Tens → Tens
  | 0, t => t
  | fives + 1, t =>
    if 2 * t.coefficient < coefficientLimit then
      overFives fives ⟨2 * t.coefficient, t.power - 1⟩
    else overFives fives ⟨t.coefficient / 5, t.power⟩

/-- Brings a positive power down to zero, if the coefficient has room. -/
def raised? : (powers : Nat) → Nat → Option Nat
  | 0, m => some m
  | powers + 1, m => if 10 * m < coefficientLimit then raised? powers (10 * m) else none

/-- Drops `places` digits one after another, each rounding a half up. A coefficient that becomes
zero keeps no power. -/
def dropped : (places : Nat) → Tens → Tens
  | 0, t => t
  | places + 1, t =>
    if t.coefficient / 10 = 0 then ⟨0, 0⟩
    else dropped places ⟨roundDiv .up t.coefficient 10, t.power + 1⟩

/-- Drops places one after another, each rounding a half up, until the coefficient is below
`limit` or no place is left. -/
def within (limit : Nat) : (places : Nat) → Tens → Tens
  | 0, t => t
  | places + 1, t =>
    if t.coefficient < limit then t
    else within limit places ⟨roundDiv .up t.coefficient 10, t.power + 1⟩

/-- Drops zeros at the end, as many as there are places. -/
def stripped : (places : Nat) → Tens → Tens
  | 0, t => t
  | places + 1, t =>
    if t.coefficient % 10 = 0 then stripped places ⟨t.coefficient / 10, t.power + 1⟩ else t

/-- The number `significand * 2 ^ exponent` as a coefficient with a power of ten. -/
def ofBinary (significand : Nat) (exponent : Int) : Tens :=
  if exponent < 0 then timesFives (-exponent).toNat ⟨significand, exponent⟩
  else overFives exponent.toNat ⟨significand, exponent⟩

end Tens

namespace Decimal

/-- The decimal closest to what the precision guarantees of a number; none for a number that is not
finite or too great. Zero keeps its sign. -/
def ofBinary? {p : Precision} (x : Binary p) : Option Decimal :=
  match x.value with
  | .finite negative 0 _ => ofParts? negative 0 0
  | .finite negative significand exponent =>
    let t := Tens.ofBinary significand exponent
    if coefficientLimit ≤ significand * twoTo exponent.toNat then none
    else if 0 ≤ t.power then
      (Tens.raised? t.power.toNat t.coefficient).bind fun m => ofParts? negative m 0
    else
      let t := Tens.dropped (-t.power - scaleLimit).toNat t
      let bits := match p with | .single => 24 | .double => 52
      let t := Tens.within (twoTo bits) (-t.power).toNat t
      let t := Tens.stripped (-t.power).toNat t
      ofParts? negative t.coefficient (-t.power).toNat
  | _ => none

end Decimal

namespace Binary

variable {p : Precision}

/-- The exact value without its sign; zero for what is not finite. -/
def ratio (x : Binary p) : Ratio :=
  match x.value with
  | .finite _ significand exponent => Ratio.scaled significand exponent
  | _ => ⟨0, 1⟩

/-- The number in double precision for a decimal. The fraction is divided out, added to the whole
part and rounded once more to the places of the decimal, each step in double precision. -/
def ofDecimal (d : Decimal) : Binary .double :=
  let nearest (r : Ratio) : Binary .double := ofRatio .double false r
  let unit := nearest ⟨tenTo d.scale, 1⟩
  let whole := nearest ⟨d.coefficient / tenTo d.scale, 1⟩
  let rest := d.coefficient % tenTo d.scale
  if d.scale = 0 then ofRatio .double (d.negative && d.coefficient != 0) ⟨d.coefficient, 1⟩
  else if rest = 0 then ofRatio .double d.negative whole.ratio
  else
    let fraction := nearest ((nearest ⟨rest, 1⟩).ratio.div unit.ratio)
    let sum := nearest (whole.ratio.add fraction.ratio)
    let product := (nearest (sum.ratio.mul unit.ratio)).ratio
    let rounded := nearest ⟨roundDiv .up product.num product.den, 1⟩
    ofRatio .double d.negative (rounded.ratio.div unit.ratio)

end Binary

end SqlMapper
