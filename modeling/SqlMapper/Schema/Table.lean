import SqlMapper.Failure
import SqlMapper.Schema.Index
import SqlMapper.Schema.Mapping

/-!
# Tables

A table is a list of columns in which a name has one place: putting a column of a known name replaces
the old one where it stands. Columns can also be found by the property they map to, after all names
have been tried.
-/

namespace SqlMapper

/-- The declaration of a table. An empty schema means the current one of a database. -/
structure Table where
  name : String
  schema : String := ""
  columns : List Column := []
  indexes : List Index := []
  /-- The mappings that have been resolved for this table, at most one per entity. -/
  mappings : List Mapping := []

namespace Table

/-- Puts a column into a list: in place of the first of its name, else at the end. -/
def putInto (c : Column) : List Column → List Column
  | [] => [c]
  | d :: ds => if d.isNamed c.name then c :: ds else d :: putInto c ds

/-- The table with a column added or replaced. -/
def put (t : Table) (c : Column) : Table := { t with columns := putInto c t.columns }

/-- The table with several columns added or replaced, in order. -/
def putAll (t : Table) (columns : List Column) : Table := columns.foldl put t

/-- Puts an index into a list: in place of the first of exactly its name, else at the end. -/
def putIndexInto (i : Index) : List Index → List Index
  | [] => [i]
  | j :: js => if j.name = i.name then i :: js else j :: putIndexInto i js

/-- The table with an index added or replaced. -/
def putIndex (t : Table) (i : Index) : Table := { t with indexes := putIndexInto i t.indexes }

/-- The column of this name, else the first that answers to it. -/
def find? (t : Table) (name : String) : Option Column :=
  (t.columns.find? (·.isNamed name)).orElse fun _ => t.columns.find? (·.answersTo name)

/-- The column of this name, or the failure of an operation that needs it. -/
def column (t : Table) (name : String) (operation : Operation) : Result Column :=
  match t.find? name with
  | some c => .ok c
  | none => .error (.metadata ⟨operation, t.name, some name⟩ .columnNotFound)

/-- The primary key columns in column order. -/
def key (t : Table) : List Column := t.columns.filter (·.isKey)

/-- The names of the primary key columns. -/
def keyNames (t : Table) : List String := t.key.map Column.name

/-- The names are those of the other list, in any order and letter case. -/
def sameNames (names others : List String) : Bool :=
  others.length == names.length && names.all fun n => others.any (Text.sameName · n)

/-- Every name leads to a column, or the first that does not. -/
def checkDeclared (t : Table) : List String → Result Unit
  | [] => .ok ()
  | n :: names =>
    match t.find? n with
    | some _ => t.checkDeclared names
    | none => .error (.metadata ⟨.ddl, t.name, some n⟩ .keyColumnNotDeclared)

/-- Declares the primary key. A second declaration of the same names changes nothing, of other names
it is refused. Columns become key columns by their own names. -/
def setKey (t : Table) (names : List String) : Result Table := do
  t.checkDeclared names
  if t.key.isEmpty then
    return { t with
      columns := t.columns.map fun c => if names.any c.isNamed then c.asKey else c }
  else if sameNames names t.keyNames then return t
  else throw (.metadata ⟨.ddl, t.name, none⟩ (.keyAlreadyDeclared t.keyNames))

/-- Checks columns in order, after those already seen: no name twice, no nullable key. -/
def validateColumns (table : String) (seen : List Column) : List Column → Result Unit
  | [] => .ok ()
  | c :: cs =>
    let site : Site := ⟨.ddl, table, some c.name⟩
    if seen.any (·.isNamed c.name) then .error (.metadata site .duplicateColumn)
    else if c.isKey && c.nullable then .error (.metadata site .nullableKey)
    else validateColumns table (c :: seen) cs

/-- Checks that every name leads to a column. -/
def validateNames (t : Table) : List String → Result Unit
  | [] => .ok ()
  | n :: names =>
    match t.column n .ddl with
    | .ok _ => t.validateNames names
    | .error e => .error e

/-- The invariants of a registered table: distinct column names, no nullable key column, and only
known columns in indexes. -/
def validate (t : Table) : Result Unit := do
  validateColumns t.name [] t.columns
  t.validateNames (t.indexes.flatMap fun i => i.columns.map Prod.fst)

/-- The mapping of an entity as resolved before, if it was. -/
def cachedMapping? (t : Table) (entity : String) : Option Mapping :=
  t.mappings.find? (·.entity == entity)

/-- The mapping of an entity: the one resolved before, else a fresh one, which the table keeps. -/
def mapping (t : Table) (entity : String) (properties : List String) : Mapping × Table :=
  match t.cachedMapping? entity with
  | some m => (m, t)
  | none =>
    let m := Mapping.resolve entity properties t.name t.columns
    (m, { t with mappings := t.mappings ++ [m] })

end Table

end SqlMapper
