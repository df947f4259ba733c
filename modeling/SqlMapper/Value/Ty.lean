import SqlMapper.Value.Basic

/-!
# Types of properties

The types that the properties of a record can have, what a value of each type is, and how it becomes
a cell. A missing value of any type becomes the typed NULL that also describes the type.
-/

namespace SqlMapper

/-- A type of a property: a base type, or one that may be missing, or a list. -/
inductive Ty where
  | boolean
  | integer (kind : IntegerKind)
  | float (precision : Precision)
  | decimal
  | text
  | blob
  | date
  | time
  | timestamp
  | zoned
  | uuid
  | option (type : Ty)
  | vec (type : Ty)
  deriving DecidableEq, Repr

namespace IntegerKind

/-- The name of the integer type in messages. -/
def typeName : IntegerKind → String
  | int8 => "i8"
  | int16 => "i16"
  | int32 => "i32"
  | int64 => "i64"
  | uint8 => "u8"
  | uint16 => "u16"
  | uint32 => "u32"
  | uint64 => "u64"

end IntegerKind

namespace Ty

def name : Ty → String
  | boolean => "bool"
  | integer k => k.typeName
  | float .single => "f32"
  | float .double => "f64"
  | decimal => "rust_decimal::decimal::Decimal"
  | text => "alloc::string::String"
  | blob => "alloc::boxed::Box<[u8]>"
  | date => "time::date::Date"
  | time => "time::time::Time"
  | timestamp => "time::plain_date_time::PlainDateTime"
  | zoned => "time::offset_date_time::OffsetDateTime"
  | uuid => "uuid::Uuid"
  | option t => "core::option::Option<" ++ t.name ++ ">"
  | vec t => "alloc::vec::Vec<" ++ t.name ++ ">"

def Carrier : Ty → Type
  | boolean => Bool
  | integer k => Integer k
  | float p => Binary p
  | decimal => Decimal
  | text => String
  | blob => List UInt8
  | date => Date
  | time => Time
  | timestamp => Timestamp
  | zoned => Zoned
  | uuid => Uuid
  | option t => Option t.Carrier
  | vec t => List t.Carrier

/-- What a property of the type holds before it is set. -/
def initial : (t : Ty) → t.Carrier
  | boolean => false
  | integer k => Integer.zero k
  | float p => Binary.zero p false
  | decimal => Decimal.zero
  | text => ""
  | blob => []
  | date => Date.epoch
  | time => Time.midnight
  | timestamp => Timestamp.mk Date.epoch Time.midnight
  | zoned => Zoned.utc ⟨Date.epoch, Time.midnight⟩
  | uuid => Uuid.zero
  | option _ => none
  | vec _ => []

/-- The typed NULL of the type. -/
def null : Ty → Value
  | boolean => .boolean none
  | integer k => .integer k none
  | float p => .float p none
  | decimal => .decimal none 0 0
  | text => .text none
  | blob => .blob none
  | date => .date none
  | time => .time none
  | timestamp => .timestamp none
  | zoned => .zoned none
  | uuid => .uuid none
  | option t => t.null
  | vec t => .list none t.null

def toValue : (t : Ty) → t.Carrier → Value
  | boolean, v => .boolean (some v)
  | integer k, v => .integer k (some v)
  | float p, v => .float p (some v)
  | decimal, v => .decimal (some v) 0 0
  | text, v => .text (some v)
  | blob, v => .blob (some v)
  | date, v => .date (some v)
  | time, v => .time (some v)
  | timestamp, v => .timestamp (some v)
  | zoned, v => .zoned (some v)
  | uuid, v => .uuid (some v)
  | option t, v => v.elim t.null t.toValue
  | vec t, v => .list (some (v.map t.toValue)) t.null

@[simp] theorem isNull_null (t : Ty) : t.null.isNull = true := by
  induction t with
  | option t ih => exact ih
  | _ => rfl

end Ty

end SqlMapper
