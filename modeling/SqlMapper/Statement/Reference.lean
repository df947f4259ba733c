import SqlMapper.Schema.Table
import SqlMapper.Sql.Piece

/-!
# References to tables and columns
-/

namespace SqlMapper

namespace Table

/-- The table in a statement, behind its schema if it has one. -/
def reference (t : Table) : Sql :=
  if t.schema.isEmpty then [.name t.name] else [.name t.schema, .text ".", .name t.name]

/-- Looks several names up, for an operation that needs all of them. -/
def columnsOf (t : Table) (operation : Operation) : List String → Result (List Column)
  | [] => .ok []
  | n :: names => do
    let c ← t.column n operation
    let cs ← t.columnsOf operation names
    return c :: cs

/-- The columns under these names, all columns when there is no name. -/
def columnsOrAll (t : Table) (operation : Operation) (names : List String) : Result (List Column) :=
  if names.isEmpty then .ok t.columns else t.columnsOf operation names

end Table

namespace Column

/-- Column names with commas between them. -/
def nameList (columns : List Column) : Sql :=
  Sql.joined ", " (columns.map fun c => [Piece.name c.name])

end Column

end SqlMapper
