import SqlMapper.Calendar.Timestamp
import SqlMapper.Number.Binary
import SqlMapper.Number.Decimal
import SqlMapper.Value.Uuid

/-!
# Values

The cells of rows, the parameters of statements and the defaults of columns. Every variant but
`null` holds an option, so that a missing value still has a type; such a typed NULL also serves as
the description of a column type.
-/

namespace SqlMapper

/-- A value of any type that a column can have. The precision and scale of `decimal` are those a
column declares, zero when it declares none. The last argument of `list` is the type of its
elements, itself described by a value. -/
inductive Value where
  | null
  | boolean (v : Option Bool)
  | integer (kind : IntegerKind) (v : Option (Integer kind))
  | float (precision : Precision) (v : Option (Binary precision))
  | decimal (v : Option Decimal) (precision scale : Nat)
  | text (v : Option String)
  | blob (v : Option (List UInt8))
  | date (v : Option Date)
  | time (v : Option Time)
  | timestamp (v : Option Timestamp)
  | zoned (v : Option Zoned)
  | uuid (v : Option Uuid)
  | list (items : Option (List Value)) (element : Value)

namespace Value

instance : Inhabited Value := ⟨null⟩

/-- The value is missing, with a type or without one. -/
def isNull : Value → Bool
  | null => true
  | boolean v => v.isNone
  | integer _ v => v.isNone
  | float _ v => v.isNone
  | decimal v _ _ => v.isNone
  | text v => v.isNone
  | blob v => v.isNone
  | date v => v.isNone
  | time v => v.isNone
  | timestamp v => v.isNone
  | zoned v => v.isNone
  | uuid v => v.isNone
  | list items _ => items.isNone

/-- The two values have one type. Decimals need the same declared precision and scale, lists the
same element type; what the values hold plays no part. -/
def sameType : Value → Value → Bool
  | null, null => true
  | boolean _, boolean _ => true
  | integer k _, integer l _ => k == l
  | float p _, float q _ => p == q
  | decimal _ p s, decimal _ q t => p == q && s == t
  | text _, text _ => true
  | blob _, blob _ => true
  | date _, date _ => true
  | time _, time _ => true
  | timestamp _, timestamp _ => true
  | zoned _, zoned _ => true
  | uuid _, uuid _ => true
  | list _ a, list _ b => a.sameType b
  | _, _ => false

/-- The NULL of the same type. The element type of a list stays as it is. -/
def toType : Value → Value
  | null => null
  | boolean _ => boolean none
  | integer k _ => integer k none
  | float p _ => float p none
  | decimal _ p s => decimal none p s
  | text _ => text none
  | blob _ => blob none
  | date _ => date none
  | time _ => time none
  | timestamp _ => timestamp none
  | zoned _ => zoned none
  | uuid _ => uuid none
  | list _ element => list none element

@[simp] theorem isNull_toType (v : Value) : v.toType.isNull = true := by
  cases v <;> rfl

end Value

end SqlMapper
