import SqlMapper.Calendar.Rfc3339
import SqlMapper.Number.DecimalBinary
import SqlMapper.Number.FloatText
import SqlMapper.Text.Blank
import SqlMapper.Text.Truncate
import SqlMapper.Text.Utf8
import SqlMapper.Value.Message
import SqlMapper.Value.Ty

/-!
# Coercion of cells into properties

A store may hand back a cell in another variant than the one that was written: an integer of another
width, text for a date, an integer for a boolean. `Ty.ofValue` accepts these forms and refuses all
others; nothing is cut, wrapped or replaced by a default.
-/

namespace SqlMapper

/-- Why a text cannot be read as a value of a base type. -/
inductive ReadingError where
  | integer (e : NumeralError)
  | float (e : FloatError)
  | decimal (e : DecimalError)
  | zoned (e : MomentError)
  | uuid (e : UuidError)
  deriving DecidableEq, Repr

namespace ReadingError

def message : ReadingError → String
  | integer e => e.message
  | float e => e.message
  | decimal e => e.message
  | zoned e => e.message
  | uuid e => e.message

/-- How many layers of a report repeat the wording. -/
def layers : ReadingError → Nat
  | zoned e => e.layers
  | _ => 1

end ReadingError

/-- Why a cell cannot become a value of a type. -/
inductive CoercionError where
  /-- The variant is not among those the type accepts. -/
  | mismatch (value : Value) (type : Ty)
  /-- The integer does not fit into the kind. -/
  | outOfRange (n : Int) (kind : IntegerKind)
  /-- The text is not one of the type. -/
  | unreadable (text : String) (type : Ty) (cause : Option ReadingError)
  /-- The bytes are not an identifier. -/
  | identifierBytes (e : UuidError)
  /-- The instant has no clock reading in UTC within the calendar. This ends the run. -/
  | calendarEnd

namespace CoercionError

/-- The wording of the error, without its cause. -/
def message : CoercionError → String
  | mismatch value type => "Cannot convert " ++ value.message ++ " to " ++ type.name
  | outOfRange n kind => "Value " ++ toString n ++ " is out of range for " ++ kind.typeName
  | unreadable text type _ => "Cannot parse `" ++ Text.truncate text ++ "` as " ++ type.name
  | identifierBytes e => e.message
  | calendarEnd => "local datetime out of valid range"

/-- The fault in the text, if one is known. -/
def cause? : CoercionError → Option ReadingError
  | unreadable _ _ cause => cause
  | _ => none

end CoercionError

/-- A coercion gives a value or the reason why there is none. -/
abbrev Coerced (α : Type) := Except CoercionError α

namespace Ty

/-- Reads the text without surrounding blanks; the error shows the text with them. -/
def parse (t : Ty) (wrap : ε → ReadingError) (read : String → Except ε α) (s : String) :
    Coerced α :=
  match read (Text.trim s) with
  | .ok a => .ok a
  | .error e => .error (.unreadable s t (some (wrap e)))

/-- Reads the text without surrounding blanks; the error shows the text without them. -/
def parseLayout (t : Ty) (read : String → Option α) (s : String) : Coerced α :=
  match read (Text.trim s) with
  | some a => .ok a
  | none => .error (.unreadable (Text.trim s) t none)

/-- From any integer that is one of the kind, and from its text. -/
def toInteger (k : IntegerKind) (v : Value) : Coerced (Integer k) :=
  match v with
  | .integer _ (some n) => (Integer.ofInt? k n.val).elim (.error (.outOfRange n.val k)) .ok
  | .text (some s) => parse (.integer k) .integer (Numeral.read k) s
  | _ => .error (.mismatch v (.integer k))

/-- From any integer, and from the texts `1`, `true`, `TRUE`, `0`, `false` and `FALSE`. -/
def toBoolean (v : Value) : Coerced Bool :=
  match v with
  | .boolean (some b) => .ok b
  | .integer _ (some n) => .ok (n.val != 0)
  | .text (some s) =>
    let word := Text.trim s
    if ["1", "true", "TRUE"].contains word then .ok true
    else if ["0", "false", "FALSE"].contains word then .ok false
    else .error (.mismatch v .boolean)
  | _ => .error (.mismatch v .boolean)

/-- From any number, rounded to the precision, and from text. -/
def toFloat (p : Precision) (v : Value) : Coerced (Binary p) :=
  match v with
  | .float q (some x) => .ok (if h : q = p then h ▸ x else x.convert p)
  | .integer _ (some n) => .ok (Binary.ofInt p n.val)
  | .decimal (some d) _ _ =>
    .ok (match p with
      | .single => (Binary.ofDecimal d).convert .single
      | .double => Binary.ofDecimal d)
  | .text (some s) => parse (.float p) .float (Binary.read p) s
  | _ => .error (.mismatch v (.float p))

/-- From any number that a decimal can hold, and from text. -/
def toDecimal (v : Value) : Coerced Decimal :=
  match v with
  | .decimal (some d) _ _ => .ok d
  | .integer _ (some n) => .ok (Decimal.ofInteger n)
  | .float _ (some x) => (Decimal.ofBinary? x).elim (.error (.mismatch v .decimal)) .ok
  | .text (some s) => parse .decimal .decimal Decimal.read s
  | _ => .error (.mismatch v .decimal)

/-- From text only. -/
def toText (v : Value) : Coerced String :=
  match v with
  | .text (some s) => .ok s
  | _ => .error (.mismatch v .text)

/-- From bytes, and from text as its UTF-8 bytes. -/
def toBlob (v : Value) : Coerced (List UInt8) :=
  match v with
  | .blob (some bytes) => .ok bytes
  | .text (some s) => .ok (Text.encodeUtf8 s)
  | _ => .error (.mismatch v .blob)

/-- From a date, from the date of a timestamp, and from text. -/
def toDate (v : Value) : Coerced Date :=
  match v with
  | .date (some d) => .ok d
  | .timestamp (some t) => .ok t.date
  | .text (some s) => parseLayout .date Date.read? s
  | _ => .error (.mismatch v .date)

/-- From a time of day and from text. -/
def toTime (v : Value) : Coerced Time :=
  match v with
  | .time (some t) => .ok t
  | .text (some s) => parseLayout .time Time.read? s
  | _ => .error (.mismatch v .time)

/-- From a timestamp, from a zoned one as the clock in UTC, and from text. -/
def toTimestamp (v : Value) : Coerced Timestamp :=
  match v with
  | .timestamp (some t) => .ok t
  | .zoned (some z) => z.clockUtc?.elim (.error .calendarEnd) .ok
  | .text (some s) => parseLayout .timestamp Timestamp.read? s
  | _ => .error (.mismatch v .timestamp)

/-- From a zoned timestamp, from one without a place as UTC, and from RFC 3339 text. -/
def toZoned (v : Value) : Coerced Zoned :=
  match v with
  | .zoned (some z) => .ok z
  | .timestamp (some t) => .ok (Zoned.utc t)
  | .text (some s) => parse .zoned .zoned Zoned.readRfc3339 s
  | _ => .error (.mismatch v .zoned)

/-- From an identifier, from its text, and from its sixteen bytes. -/
def toUuid (v : Value) : Coerced Uuid :=
  match v with
  | .uuid (some u) => .ok u
  | .text (some s) => parse .uuid .uuid Uuid.read s
  | .blob (some bytes) => (Uuid.ofBytes bytes).mapError .identifierBytes
  | _ => .error (.mismatch v .uuid)

/-- The coerced elements in order, or the error of the first that has one. -/
def coerceAll (coerce : Value → Coerced α) : List Value → Coerced (List α)
  | [] => .ok []
  | v :: vs => do
    let a ← coerce v
    let as ← coerceAll coerce vs
    return a :: as

/-- The value of the type that a cell stands for. A type that may be missing reads every NULL as
missing; a list is read from lists only. -/
def ofValue : (t : Ty) → Value → Coerced t.Carrier
  | boolean, v => toBoolean v
  | integer k, v => toInteger k v
  | float p, v => toFloat p v
  | decimal, v => toDecimal v
  | text, v => toText v
  | blob, v => toBlob v
  | date, v => toDate v
  | time, v => toTime v
  | timestamp, v => toTimestamp v
  | zoned, v => toZoned v
  | uuid, v => toUuid v
  | option t, v => if v.isNull then .ok none else (t.ofValue v).map some
  | vec t, v =>
    match v with
    | .list (some items) _ => coerceAll t.ofValue items
    | v => .error (.mismatch v t.vec)

end Ty

end SqlMapper
