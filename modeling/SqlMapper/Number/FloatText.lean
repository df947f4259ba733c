import SqlMapper.Number.Numeral
import SqlMapper.Number.Shortest

/-!
# Text of floating point numbers

Writing gives the shortest decimal in one of several styles, reading rounds the decimal in the text
to the nearest number.
-/

namespace SqlMapper

/-- How a shortest decimal is laid out. The point position is the count of digits before the
point, zero or negative when zeros follow it. -/
structure FloatStyle where
  tie : Tie
  /-- The least point position written without an exponent. -/
  lowPoint : Int
  /-- The greatest point position written without an exponent. -/
  highPoint : Int
  deriving DecidableEq, Repr

namespace FloatStyle

/-- Messages: plain from `1e-4` up to below `1e16`. -/
def message : FloatStyle := ⟨.up, -3, 16⟩

/-- SQL literals: plain from `1e-5` up to below `1e16`, or from `1e-6` up to below `1e13` in single
precision. -/
def literal : Precision → FloatStyle
  | .single => ⟨.even, -5, 13⟩
  | .double => ⟨.even, -4, 16⟩

/-- The layout of a decimal with the digits `ds`. -/
def layout (style : FloatStyle) (ds : List Char) (exponent : Int) : List Char :=
  let point := ds.length + exponent
  if style.lowPoint ≤ point ∧ point ≤ style.highPoint then
    if 0 ≤ exponent then ds ++ List.replicate exponent.toNat '0' ++ ['.', '0']
    else if 0 < point then ds.take point.toNat ++ '.' :: ds.drop point.toNat
    else '0' :: '.' :: List.replicate (-point).toNat '0' ++ ds
  else
    ds.take 1 ++ (if ds.length ≤ 1 then [] else '.' :: ds.drop 1) ++
      'e' :: (toString (point - 1)).toList

end FloatStyle

namespace Binary

variable {p : Precision}

/-- The text of the number in a style. What is no number is written `NaN` without a sign. -/
def text (style : FloatStyle) (x : Binary p) : String :=
  let signed (negative : Bool) (body : List Char) : String :=
    String.ofList (if negative then '-' :: body else body)
  match x.value with
  | .nan => "NaN"
  | .infinite negative => signed negative "inf".toList
  | .finite negative 0 _ => signed negative "0.0".toList
  | .finite negative significand exponent =>
    let s := shortest style.tie p significand exponent
    signed negative (style.layout (Nat.toDigits 10 s.digits) s.exponent)

/-- The number is neither infinite nor the absence of a number. -/
def isFinite (x : Binary p) : Bool :=
  match x.value with
  | .finite .. => true
  | _ => false

end Binary

/-- Why a text is not a floating point number. -/
inductive FloatError where
  | empty
  | invalid
  deriving DecidableEq, Repr

namespace FloatError

def message : FloatError → String
  | empty => "cannot parse float from empty string"
  | invalid => "invalid float literal"

end FloatError

namespace Numeral

/-- The number that a run of digits denotes. -/
def ofDigits (cs : List Char) : Nat := cs.foldl (fun n c => 10 * n + (digit? c).getD 0) 0

/-- An optional sign and one or more digits, up to the end of the text. -/
def exponent? (cs : List Char) : Option Int :=
  let (negative, ds) := match cs with
    | '-' :: ds => (true, ds)
    | '+' :: ds => (false, ds)
    | ds => (false, ds)
  if ds.isEmpty || !ds.all Char.isDigit then none
  else some (if negative then -(ofDigits ds : Int) else ofDigits ds)

/-- Digits with an optional point and an optional exponent, at least one digit before the
exponent. -/
def scientific? (cs : List Char) : Option Scientific :=
  let whole := cs.takeWhile Char.isDigit
  let (fraction, rest) := match cs.dropWhile Char.isDigit with
    | '.' :: rest => (rest.takeWhile Char.isDigit, rest.dropWhile Char.isDigit)
    | rest => ([], rest)
  if whole.isEmpty && fraction.isEmpty then none
  else
    let digits := ofDigits (whole ++ fraction)
    match rest with
    | [] => some ⟨digits, -(fraction.length : Int)⟩
    | c :: rest =>
      if c = 'e' ∨ c = 'E' then
        (exponent? rest).map fun e => ⟨digits, e - fraction.length⟩
      else none

end Numeral

namespace Binary

/-- The number nearest to a decimal. Decimals far outside every format are not expanded. -/
def ofScientific (p : Precision) (negative : Bool) (s : Scientific) : Binary p :=
  let point := (Nat.toDigits 10 s.digits).length + s.exponent
  if s.digits = 0 ∨ point < -400 then zero p negative
  else if 400 < point then infinity p negative
  else ofRatio p negative (Ratio.decimal s.digits s.exponent)

/-- A number without its sign: `inf`, `infinity` or `nan` in any letter case, or a decimal. -/
def readUnsigned (p : Precision) (negative : Bool) (cs : List Char) : Option (Binary p) :=
  let word := cs.map Char.toLower
  if word = "inf".toList ∨ word = "infinity".toList then some (infinity p negative)
  else if word = "nan".toList then some (nan p)
  else (Numeral.scientific? cs).map (ofScientific p negative)

/-- The number that a text denotes, correctly rounded. -/
def read (p : Precision) (s : String) : Except FloatError (Binary p) :=
  match s.toList with
  | [] => .error .empty
  | '-' :: cs => (readUnsigned p true cs).elim (.error .invalid) .ok
  | '+' :: cs => (readUnsigned p false cs).elim (.error .invalid) .ok
  | cs => (readUnsigned p false cs).elim (.error .invalid) .ok

end Binary

end SqlMapper
