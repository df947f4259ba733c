import SqlMapper.Sql.Literal
import SqlMapper.Sql.TypeName
import SqlMapper.Statement.Query

/-!
# Schema edits

One statement that changes the schema of a database, as data: what it does can be read off its
constructor, and `Edit.sql` writes it down.
-/

namespace SqlMapper

/-- The default of a column with the literal that writes it. -/
structure DefaultClause where
  value : Value
  literal : String

/-- The definition of a column inside a statement. -/
structure ColumnClause where
  name : String
  type : String
  notNull : Bool
  default : Option DefaultClause
  /-- The column alone is the primary key. -/
  isKey : Bool
  comment : Option String

/-- One difference of a column. -/
inductive ColumnChange where
  | type (name : String)
  | nullable (nullable : Bool)
  | setDefault (clause : DefaultClause)
  | dropDefault

/-- A statement that changes the schema. -/
inductive Edit where
  /-- Creates the table unless it exists. A key of several columns stands after the columns. -/
  | createTable (columns : List ColumnClause) (compositeKey : List String)
  | addColumn (clause : ColumnClause)
  | changeColumn (name : String) (changes : List ColumnChange)
  /-- Replaces the whole definition of a column. -/
  | redefineColumn (clause : ColumnClause)
  | addKey (columns : List String)
  /-- Creates an index; a guarded one is skipped when it exists. -/
  | createIndex (name : String) (unique guarded : Bool) (columns : List (String × Direction))
  | comment (column text : String)

namespace ColumnClause

def sql (d : Dialect) (c : ColumnClause) : Sql :=
  [.name c.name, .text " ", .text c.type] ++
    (if c.notNull then [.text " NOT NULL"] else []) ++
    (c.default.elim [] fun v => [.text " DEFAULT ", .text v.literal]) ++
    (if c.isKey then [.text " PRIMARY KEY"] else []) ++
    (c.comment.elim [] fun text => [.text " COMMENT ", .text (d.stringLiteral text)])

/-- The default of a column as its definition has it. -/
def defaultOf (d : Dialect) (table : String) (c : Column) : Result (Option DefaultClause) :=
  match c.default with
  | none => .ok none
  | some value =>
    match d.literal value with
    | .ok literal => .ok (some ⟨value, literal⟩)
    | .error e => .error (.metadata ⟨.ddl, table, some c.name⟩ (.faults [e]))

/-- The definition of a column. With `alone` the column is the primary key, which says already that
it is not null. -/
def ofColumn (d : Dialect) (table : String) (c : Column) (alone : Bool) : Result ColumnClause := do
  let type ← d.columnType table c
  let default ← defaultOf d table c
  return {
    name := c.name
    type
    notNull := !c.nullable && !alone
    default
    isKey := alone
    comment := if d.comments = .inline ∧ ¬ c.comment.isEmpty then some c.comment else none }

/-- The definitions of several columns; `alone` when the key has a single column. -/
def ofColumns (d : Dialect) (table : String) (alone : Bool) : List Column → Result (List ColumnClause)
  | [] => .ok []
  | c :: cs => do
    let clause ← ofColumn d table c (alone && c.isKey)
    let clauses ← ofColumns d table alone cs
    return clause :: clauses

end ColumnClause

namespace ColumnChange

/-- The change after the name of its column. -/
def text : ColumnChange → String
  | type name => "TYPE " ++ name
  | nullable true => "DROP NOT NULL"
  | nullable false => "SET NOT NULL"
  | setDefault clause => "SET DEFAULT " ++ clause.literal
  | dropDefault => "DROP DEFAULT"

end ColumnChange

namespace Edit

def nameList (names : List String) : Sql := Sql.joined ", " (names.map fun n => [Piece.name n])

def sql (d : Dialect) (t : Table) : Edit → Sql
  | createTable columns compositeKey =>
    .text "CREATE TABLE IF NOT EXISTS " :: t.reference ++ .text " (\n" ::
      Sql.joined ",\n" (columns.map (ColumnClause.sql d)) ++
      (if compositeKey.isEmpty then []
        else .text ",\nPRIMARY KEY (" :: nameList compositeKey ++ [.text ")"]) ++ [.text "\n)"]
  | addColumn clause =>
    .text "ALTER TABLE " :: t.reference ++ .text " ADD COLUMN " :: clause.sql d
  | changeColumn name changes =>
    .text "ALTER TABLE " :: t.reference ++ .text " " :: Sql.joined ",\n" (changes.map fun change =>
      [.text "ALTER COLUMN ", .name name, .text " ", .text change.text])
  | redefineColumn clause =>
    .text "ALTER TABLE " :: t.reference ++ .text " MODIFY COLUMN " :: clause.sql d
  | addKey columns =>
    .text "ALTER TABLE " :: t.reference ++ .text " ADD PRIMARY KEY (" :: nameList columns ++
      [.text ")"]
  | createIndex name unique guarded columns =>
    .text (if unique then "CREATE UNIQUE INDEX " else "CREATE INDEX ") ::
      .text (if guarded then "IF NOT EXISTS " else "") :: .name name :: .text " ON " ::
      t.reference ++ .text " (" :: Sql.joined ", " (columns.map fun c =>
        [.name c.1, .text c.2.word]) ++ [.text ")"]
  | comment column text =>
    .text "COMMENT ON COLUMN " :: t.reference ++ [.text ".", .name column, .text " IS ",
      .text (d.stringLiteral text)]

def request (d : Dialect) (t : Table) (e : Edit) : Request := d.request (e.sql d t)

/-! ### Edits for parts of a table -/

/-- Creates the table with its columns and its key. -/
def creating (d : Dialect) (t : Table) : Result Edit := do
  let alone := t.key.length = 1
  let clauses ← ColumnClause.ofColumns d t.name alone t.columns
  return createTable clauses (if 1 < t.key.length then t.keyNames else [])

def adding (d : Dialect) (t : Table) (c : Column) : Result Edit := do
  let clause ← ColumnClause.ofColumn d t.name c false
  return addColumn clause

/-- The changed default, whose literal fails without a place. -/
def defaultChange (d : Dialect) (known c : Column) : Result (List ColumnChange) :=
  if c.sameDefault known then .ok []
  else
    match c.default with
    | none => .ok [.dropDefault]
    | some value =>
      match d.literal value with
      | .ok literal => .ok [.setDefault ⟨value, literal⟩]
      | .error e => .error (.fault e)

/-- The differences of a column from a known one, one by one. -/
def changes (d : Dialect) (t : Table) (known c : Column) : Result (List ColumnChange) := do
  let type ← d.columnType t.name c
  let knownType ← d.columnType t.name known
  let default ← defaultChange d known c
  return (if type = knownType then [] else [.type type]) ++
    (if c.nullable = known.nullable then [] else [.nullable c.nullable]) ++ default

/-- Brings a known column to the shape of another. No edit when nothing differs in the text. -/
def altering (d : Dialect) (t : Table) (known c : Column) : Result (List Edit) :=
  match d.altering with
  | .none => .error (.metadata ⟨.ddl, t.name, some c.name⟩ (.alteringRefused d.name))
  | .definition => do
    let clause ← ColumnClause.ofColumn d t.name c false
    return [redefineColumn clause]
  | .clauses => do
    let changes ← changes d t known c
    return if changes.isEmpty then [] else [changeColumn c.name changes]

/-- Declares the primary key of an existing table. -/
def addingKey (d : Dialect) (t : Table) : Result Edit :=
  if d.addsKeys then .ok (addKey t.keyNames)
  else .error (.metadata ⟨.ddl, t.name, none⟩ (.addingKeyRefused d.name))

/-- The columns of an index by their own names. -/
def indexColumns (t : Table) : List (String × Direction) → Result (List (String × Direction))
  | [] => .ok []
  | (name, direction) :: rest => do
    let c ← t.column name .ddl
    let columns ← indexColumns t rest
    return (c.name, direction) :: columns

def indexing (d : Dialect) (t : Table) (i : Index) : Result Edit := do
  let columns ← indexColumns t i.columns
  return createIndex i.name i.unique d.guardsIndexes columns

/-- Comments a column, where comments have statements of their own. -/
def commenting (d : Dialect) (c : Column) : List Edit :=
  if d.comments = .statement then [comment c.name c.comment] else []

end Edit

end SqlMapper
