import SqlMapper.Text.Truncate
import SqlMapper.Value.Message

/-!
# Requests

What is sent to a database: the text of a statement with placeholders, and the values that belong
to the placeholders in order, each with the database type of its column.
-/

namespace SqlMapper

/-- A value bound to a placeholder. -/
structure Param where
  value : Value
  sqlType : String

/-- A compiled statement. -/
structure Request where
  sql : String
  params : List Param := []

namespace Request

def values (r : Request) : List Value := r.params.map Param.value

/-- The request as a message shows it: the shortened text, and under it the values, if any. -/
def message (r : Request) : String :=
  Text.truncate r.sql ++
    if r.params.isEmpty then ""
    else "\n-- params: [" ++ ", ".intercalate (r.values.map Value.message) ++ "]"

end Request

end SqlMapper
