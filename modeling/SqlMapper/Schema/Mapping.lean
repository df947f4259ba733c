import SqlMapper.Schema.Column

/-!
# Columns and properties

Which property of a record each column of a table stands for. A column maps to the property of
exactly the name it asks for, else to the first that differs only in letter case; a column that
finds none is left out.
-/

namespace SqlMapper

/-- The columns of a table that stand for properties of an entity, in column order. -/
structure Mapping where
  entity : String
  table : String
  /-- Pairs of a column name and a property name. -/
  entries : List (String × String)
  deriving DecidableEq, Repr

namespace Mapping

def property? (properties : List String) (wanted : String) : Option String :=
  (properties.find? (· == wanted)).orElse fun _ => properties.find? (Text.sameName · wanted)

/-- The mapping between columns and the properties of an entity. -/
def resolve (entity : String) (properties : List String) (table : String)
    (columns : List Column) : Mapping :=
  { entity
    table
    entries := columns.filterMap fun c =>
      (property? properties c.property).map fun p => (c.name, p) }

/-- The property of a column, whose name may differ in letter case. -/
def propertyOf? (m : Mapping) (column : String) : Option String :=
  (m.entries.find? fun entry => Text.sameName entry.1 column).map Prod.snd

def columnOf? (m : Mapping) (property : String) : Option String :=
  (m.entries.find? fun entry => entry.2 == property).map Prod.fst

end Mapping

end SqlMapper
