import SqlMapper.Text.Case
import SqlMapper.Value.Equality
import SqlMapper.Value.Ty

/-!
# Columns

The declaration of one column of a table. Its type is a NULL of that type; the dialect names the
type in the database unless the column names it itself.
-/

namespace SqlMapper

/-- A column of a table. -/
structure Column where
  name : String
  /-- The property of a record that the column maps to; empty means the property of its name. -/
  mappedTo : String := ""
  /-- The NULL of the type. -/
  type : Value := .null
  /-- The type in the database; empty means the one the dialect gives. -/
  typeName : String := ""
  length : Option Nat := none
  /-- Precision and scale. -/
  precision : Option (Nat × Nat) := none
  nullable : Bool := false
  isKey : Bool := false
  default : Option Value := none
  comment : String := ""

namespace Column

/-- A nullable column with the type of a value. -/
def new (name : String) (value : Value) : Column :=
  { name, type := value.toType, nullable := true }

/-- A nullable column for a property type. -/
def ofTy (name : String) (t : Ty) : Column := new name t.null

/-- The column as a part of the primary key, which is never nullable. -/
def asKey (c : Column) : Column := { c with isKey := true, nullable := false }

/-- The name of the property that the column maps to. -/
def property (c : Column) : String := if c.mappedTo.isEmpty then c.name else c.mappedTo

def isNamed (c : Column) (name : String) : Bool := Text.sameName c.name name

/-- The column answers to this name: its own in any letter case, or exactly the one it maps to. -/
def answersTo (c : Column) (name : String) : Bool :=
  c.isNamed name || (!c.mappedTo.isEmpty && c.mappedTo == name)

/-- The two columns have different shapes in the database. Key, default and comment play no part,
nor does the letter case of the database type. -/
def differs (a b : Column) : Bool :=
  !a.type.sameType b.type || !Text.sameName a.typeName b.typeName || a.length != b.length ||
    a.precision != b.precision || a.nullable != b.nullable

/-- The two columns have equal defaults, or both none. -/
def sameDefault (a b : Column) : Bool :=
  match a.default, b.default with
  | none, none => true
  | some v, some w => v.same w
  | _, _ => false

end Column

end SqlMapper
