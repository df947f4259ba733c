/-!
# Indexes
-/

namespace SqlMapper

/-- A direction of sorting. -/
inductive Direction where
  | ascending
  | descending
  deriving DecidableEq, Repr

/-- An index of a table: its columns in order, each with a direction. -/
structure Index where
  name : String
  unique : Bool := false
  columns : List (String × Direction) := []
  deriving DecidableEq, Repr

end SqlMapper
