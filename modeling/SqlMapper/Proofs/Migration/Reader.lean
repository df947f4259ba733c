import SqlMapper.Proofs.Lexis.TypeName
import SqlMapper.Proofs.Migration.Denotation
import SqlMapper.Proofs.Statement.Address

/-! Statements on a schema are read from their texts, letter by letter: the table that one is about, and
what it says, with its names, types, literals and clauses. An edit can be read if each type in it is
one, since types have no marks around them. -/
namespace SqlMapper

namespace Parse

variable (d : Dialect)

/-- The table that a statement is about. -/
def table : Parse Path := do
  match ← separated '.' (name d) 2 with
  | [table] => return (none, table)
  | [schema, table] => return (some schema, table)
  | _ => failure

def column : Parse (Path × String) := do
  match ← separated '.' (name d) 3 with
  | [table, column] => return ((none, table), column)
  | [schema, table, column] => return ((some schema, table), column)
  | _ => failure

def definition : Parse Definition := do
  let name ← name d
  let type ← typeName
  let notNull ← present ["NOT", "NULL"]
  let default ← optional (do keyword "DEFAULT"; literal d)
  let isKey ← present ["PRIMARY", "KEY"]
  let comment ← optional (do keyword "COMMENT"; string d)
  return { name, type, notNull, default, isKey, comment }

/-- A part of a new table: its key or a column. -/
def item : Parse (List String ⊕ Definition) := do
  match ← optional (keywords ["PRIMARY", "KEY"]) with
  | some _ => .inl <$> enclosed (name d)
  | none => .inr <$> definition d

def newTable : Parse (Path × SchemaStatement) := do
  keywords ["IF", "NOT", "EXISTS"]
  let table ← table d
  let items ← enclosed (item d)
  match items.filterMap Sum.getLeft? with
  | [] => return (table, .createTable (items.filterMap Sum.getRight?) [])
  | [key] => return (table, .createTable (items.filterMap Sum.getRight?) key)
  | _ => failure

/-- The direction of a column in an index. -/
def direction : String → Parse Direction
  | "ASC" => return .ascending
  | "DESC" => return .descending
  | _ => failure

def indexColumn : Parse (String × Direction) := do
  let name ← name d
  let direction ← word >>= direction
  return (name, direction)

def newIndex (unique : Bool) : Parse (Path × SchemaStatement) := do
  let guarded ← present ["IF", "NOT", "EXISTS"]
  let index ← name d
  keyword "ON"
  let table ← table d
  let columns ← enclosed (indexColumn d)
  return (table, .createIndex index unique guarded columns)

def creation : String → Parse (Path × SchemaStatement)
  | "TABLE" => newTable d
  | "UNIQUE" => do
    keyword "INDEX"
    newIndex d true
  | "INDEX" => newIndex d false
  | _ => failure

def setting : String → Parse Alteration
  | "NOT" => do
    keyword "NULL"
    return .nullable false
  | "DEFAULT" => .setDefault <$> literal d
  | _ => failure

def dropping : String → Parse Alteration
  | "NOT" => do
    keyword "NULL"
    return .nullable true
  | "DEFAULT" => return .dropDefault
  | _ => failure

/-- What becomes of a column behind a word. -/
def alteration : String → Parse Alteration
  | "TYPE" => .type <$> typeName
  | "SET" => word >>= setting d
  | "DROP" => word >>= dropping
  | _ => failure

/-- What is added to a table behind a word. -/
def addition : String → Parse TableAction
  | "COLUMN" => .add <$> definition d
  | "PRIMARY" => do
    keyword "KEY"
    .addKey <$> enclosed (name d)
  | _ => failure

/-- What is done to a table behind a word. -/
def action : String → Parse TableAction
  | "ADD" => word >>= addition d
  | "MODIFY" => do
    keyword "COLUMN"
    .redefine <$> definition d
  | "ALTER" => do
    keyword "COLUMN"
    let name ← name d
    .alter name <$> (word >>= alteration d)
  | _ => failure

/-- A statement on a schema behind its first word. -/
def schemaStatement : String → Parse (Path × SchemaStatement)
  | "CREATE" => word >>= creation d
  | "ALTER" => do
    keyword "TABLE"
    let table ← table d
    let actions ← listed (word >>= action d)
    return (table, .alterTable actions)
  | "COMMENT" => do
    keywords ["ON", "COLUMN"]
    let (table, column) ← column d
    keyword "IS"
    let text ← string d
    return (table, .comment column text)
  | _ => failure

end Parse

/-- The table and the statement that a whole text is read as. -/
def Dialect.readSchema (d : Dialect) (sql : String) : Option (Path × SchemaStatement) :=
  match (Parse.word >>= Parse.schemaStatement d) sql.toList with
  | some (found, rest) => if (Parse.skipped rest).isEmpty then some found else none
  | none => none

/-! ### What can be read -/

/-- The definition of a column can be read: its type is a type, and its default has the literal of its
value. -/
structure ColumnClause.Legible (d : Dialect) (clause : ColumnClause) : Prop where
  type : Text.isType clause.type = true
  default : ∀ x ∈ clause.default, d.literal x.value = .ok x.literal

/-- A change can be read. -/
def ColumnChange.Legible (d : Dialect) : ColumnChange → Prop
  | type name => Text.isType name = true
  | setDefault clause => d.literal clause.value = .ok clause.literal
  | nullable _ | dropDefault => True

/-- An edit can be read: all types and defaults in it can, it changes something, and a key of a new
table has columns. -/
def Edit.Legible (d : Dialect) : Edit → Prop
  | createTable columns compositeKey =>
    (∀ clause ∈ columns, clause.Legible d) ∧ (columns = [] → compositeKey = [])
  | addColumn clause | redefineColumn clause => clause.Legible d
  | changeColumn _ changes => changes ≠ [] ∧ ∀ change ∈ changes, change.Legible d
  | addKey _ | createIndex _ _ _ _ | comment _ _ => True

end SqlMapper
