import SqlMapper.Calendar.Text
import SqlMapper.Number.FloatText
import SqlMapper.Text.Quoted
import SqlMapper.Value.Basic

/-!
# Values in messages

The form of a value inside an error message or under a shown statement: its variant, and what it
holds as `Some(…)` or `None`.
-/

namespace SqlMapper

def heldText (form : α → String) : Option α → String
  | none => "None"
  | some a => "Some(" ++ form a ++ ")"

namespace IntegerKind

def tag : IntegerKind → String
  | int8 => "Int8"
  | int16 => "Int16"
  | int32 => "Int32"
  | int64 => "Int64"
  | uint8 => "UInt8"
  | uint16 => "UInt16"
  | uint32 => "UInt32"
  | uint64 => "UInt64"

end IntegerKind

namespace Precision

/-- The variant of a floating point value. -/
def tag : Precision → String
  | single => "Float32"
  | double => "Float64"

end Precision

namespace Value

def boolText (b : Bool) : String := if b then "true" else "false"

def bracketed (texts : List String) : String := "[" ++ ", ".intercalate texts ++ "]"

mutual

/-- The form of a value inside a message. -/
def message : Value → String
  | null => "Null"
  | boolean v => "Boolean(" ++ heldText boolText v ++ ")"
  | integer k v => k.tag ++ "(" ++ heldText (fun n => toString n.val) v ++ ")"
  | float p v => p.tag ++ "(" ++ heldText (Binary.text .message) v ++ ")"
  | decimal v p s =>
    "Decimal(" ++ heldText Decimal.text v ++ ", " ++ toString p ++ ", " ++ toString s ++ ")"
  | text v => "Varchar(" ++ heldText Text.quoted v ++ ")"
  | blob v =>
    "Blob(" ++ heldText (fun bytes => bracketed (bytes.map fun b => toString b.toNat)) v ++ ")"
  | date v => "Date(" ++ heldText Date.text v ++ ")"
  | time v => "Time(" ++ heldText Time.messageText v ++ ")"
  | timestamp v => "Timestamp(" ++ heldText Timestamp.messageText v ++ ")"
  | zoned v => "TimestampWithTimezone(" ++ heldText Zoned.messageText v ++ ")"
  | uuid v => "Uuid(" ++ heldText Uuid.text v ++ ")"
  | list none element => "List(None, " ++ message element ++ ")"
  | list (some items) element =>
    "List(Some(" ++ bracketed (messages items) ++ "), " ++ message element ++ ")"

def messages : List Value → List String
  | [] => []
  | v :: vs => message v :: messages vs

end

end Value

end SqlMapper
