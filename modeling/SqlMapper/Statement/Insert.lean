import SqlMapper.Sql.TypeName
import SqlMapper.Statement.Reference

/-!
# Insertion of rows

Rows are aligned with the named columns, or with all columns of the table. A dialect without
insertion of many rows gets one statement for each row. With `upsert` a row whose key is there
already is updated instead, if the dialect can say so in the same statement.
-/

namespace SqlMapper

/-- An insertion. -/
structure Insert where
  table : Table
  dialect : Dialect
  columns : List String := []
  rows : List (List Value) := []
  upsert : Bool := false

namespace Insert

def site (i : Insert) : Site := ⟨.insert, i.table.name, none⟩

/-- The first row, counted from `index`, whose length is not that of the columns. -/
def misfit? (width index : Nat) : List (List Value) → Option (Nat × Nat)
  | [] => none
  | row :: rows =>
    if row.length = width then misfit? width (index + 1) rows else some (index, row.length)

def columnTypes (d : Dialect) (table : String) : List Column → Result (List String)
  | [] => .ok []
  | c :: cs => do
    let type ← d.columnType table c
    let types ← columnTypes d table cs
    return type :: types

def rowSql (types : List String) (row : List Value) : Sql :=
  Sql.enclosed (Sql.joined ", " (row.zipWith (fun v type => [Piece.bind v type]) types))

def rowsSql (t : Table) (columns : List Column) (types : List String) (rows : List (List Value)) :
    Sql :=
  .text "INSERT INTO " :: t.reference ++ .text " (" :: Column.nameList columns ++
    .text ") VALUES\n" :: Sql.joined ",\n" (rows.map (rowSql types))

/-- The columns that an update of an existing row sets: those outside the key. -/
def updatedColumns (columns key : List Column) : List Column :=
  columns.filter fun c => !key.any (·.name == c.name)

/-- The clause that turns an insertion into an update; none when the dialect has no such clause. -/
def upsertSql? (style : UpsertStyle) (columns key : List Column) : Option Sql :=
  let updated := updatedColumns columns key
  match style with
  | .none => none
  | .onConflict =>
    let action : Sql :=
      if updated.isEmpty then [.text " DO NOTHING"]
      else .text " DO UPDATE SET\n" :: Sql.joined ",\n" (updated.map fun c =>
        [.name c.name, .text " = EXCLUDED.", .name c.name])
    some (.text "\nON CONFLICT (" :: Column.nameList key ++ .text ")" :: action)
  | .onDuplicateKey =>
    let assigned := if updated.isEmpty then key else updated
    some (.text "\nON DUPLICATE KEY UPDATE\n" :: Sql.joined ",\n" (assigned.map fun c =>
      [.name c.name, .text " = VALUES(", .name c.name, .text ")"]))

def batches (d : Dialect) (rows : List (List Value)) : List (List (List Value)) :=
  if d.multiRow then [rows] else rows.map ([·])

/-- The statements in order; none when an upsert is asked for that the dialect does not have. -/
def compileUpsert (i : Insert) : Result (Option (List Request)) := do
  let columns ← i.table.columnsOrAll .insert i.columns
  if i.rows.isEmpty then throw (.compile i.site .noRows)
  if let some (row, got) := misfit? columns.length 0 i.rows then
    throw (.compile i.site (.rowLength row got columns.length))
  let key := i.table.key
  if i.upsert && key.isEmpty then throw (.metadata i.site .upsertNeedsKey)
  let types ← columnTypes i.dialect i.table.name columns
  let clause? := if i.upsert then upsertSql? i.dialect.upsert columns key else some []
  return clause?.map fun clause =>
    (batches i.dialect i.rows).map fun rows =>
      i.dialect.request (rowsSql i.table columns types rows ++ clause)

def compile (i : Insert) : Result (List Request) := do
  match ← i.compileUpsert with
  | some requests => return requests
  | none => throw (.compile i.site (.noUpsert i.dialect.name))

end Insert

end SqlMapper
