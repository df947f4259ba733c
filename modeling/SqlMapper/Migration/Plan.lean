import SqlMapper.Migration.Edit

/-!
# Migration plans

The steps that bring a database from a known table, or none, to a target table. Columns that only the
target has are added, columns that both have are altered where they differ, columns that only the
known table has are left alone. Comments, the primary key and indexes follow. Each step also says
what it does to the known table once its statements have run.
-/

namespace SqlMapper

/-- What a step does to the known table. -/
inductive TableChange where
  | create
  /-- A column is added or altered. -/
  | column (c : Column)
  /-- A column gets its comment. -/
  | comment (c : Column)
  | key
  | index (i : Index)

/-- A change with the statements that carry it out. -/
structure Step where
  change : TableChange
  edits : List Edit

namespace Step

/-- The comment step of a column that has a comment. -/
def commentOn (d : Dialect) (c : Column) : Step := ⟨.comment c, Edit.commenting d c⟩

def indexing (d : Dialect) (target : Table) : List Index → Result (List Step)
  | [] => .ok []
  | i :: rest => do
    let edit ← Edit.indexing d target i
    let steps ← indexing d target rest
    return ⟨.index i, [edit]⟩ :: steps

end Step

namespace Plan

/-- The steps for a table that is not known. -/
def fresh (d : Dialect) (target : Table) : Result (List Step) := do
  let edit ← Edit.creating d target
  let indexes ← Step.indexing d target target.indexes
  return ⟨.create, [edit]⟩ ::
    (target.columns.filter (!·.comment.isEmpty)).map (Step.commentOn d) ++ indexes

/-- The step that adds or alters a column, if it needs one. -/
def columnStep (d : Dialect) (target : Table) (c : Column) : Option Column → Result (List Step)
  | none => do
    let edit ← Edit.adding d target c
    return [⟨.column c, [edit]⟩]
  | some known =>
    if c.differs known || !c.sameDefault known then do
      let edits ← Edit.altering d target known c
      return [⟨.column c, edits⟩]
    else .ok []

/-- The steps for the columns of the target, each followed by its comment if that is new. -/
def columnSteps (d : Dialect) (known target : Table) : List Column → Result (List Step)
  | [] => .ok []
  | c :: cs => do
    let previous := known.find? c.name
    let step ← columnStep d target c previous
    let comment := if c.comment.isEmpty || c.comment == previous.elim "" Column.comment then []
      else [Step.commentOn d c]
    let steps ← columnSteps d known target cs
    return step ++ comment ++ steps

/-- The step for the primary key, if it needs one. A key that is there already stays. -/
def keySteps (d : Dialect) (known target : Table) : Result (List Step) :=
  if Table.sameNames target.keyNames known.keyNames then .ok []
  else if known.key.isEmpty then do
    let edit ← Edit.addingKey d target
    return [⟨.key, [edit]⟩]
  else
    .error (.metadata ⟨.ddl, target.name, none⟩ (.keyReplaced known.keyNames target.keyNames))

/-- The indexes of the target that the known table has no index of the name of. -/
def newIndexes (known target : Table) : List Index :=
  target.indexes.filter fun i => !known.indexes.any (·.name == i.name)

/-- The steps from a known table, or none, to the target. -/
def steps (d : Dialect) (known : Option Table) (target : Table) : Result (List Step) := do
  target.validate
  match known with
  | none => fresh d target
  | some known => do
    let columns ← columnSteps d known target target.columns
    let key ← keySteps d known target
    let indexes ← Step.indexing d target (newIndexes known target)
    return columns ++ key ++ indexes

end Plan

namespace TableChange

/-- Sets the comment of the first column with the name of `c`. -/
def setComment (c : Column) : List Column → List Column
  | [] => []
  | d :: ds =>
    if d.isNamed c.name then { d with comment := c.comment } :: ds else d :: setComment c ds

/-- The known table after the change. A column keeps the comment and the place in the key that it
had, since other steps set these. -/
def apply (target : Table) (known : Table) : TableChange → Table
  | create => { target with
      indexes := []
      mappings := []
      columns := target.columns.map fun c => { c with comment := "" } }
  | column c =>
    let previous := known.columns.find? (·.isNamed c.name)
    known.put { c with
      isKey := previous.elim false Column.isKey
      comment := previous.elim "" Column.comment }
  | comment c => { known with columns := setComment c known.columns }
  | key => { known with columns := known.columns.map fun c =>
      { c with isKey := target.columns.any fun k => k.isKey && k.isNamed c.name } }
  | index i => { known with indexes := known.indexes.filter (·.name != i.name) ++ [i] }

end TableChange

namespace Table

/-- Adds the indexes whose names the others do not have. -/
def withUnknownIndexes (indexes : List Index) : List Index → List Index
  | [] => indexes
  | i :: rest =>
    if indexes.any (·.name == i.name) then withUnknownIndexes indexes rest
    else withUnknownIndexes (indexes ++ [i]) rest

/-- Adds the columns that the table does not find. -/
def withUnknown (t : Table) : List Column → Table
  | [] => t
  | c :: cs =>
    match t.find? c.name with
    | some _ => t.withUnknown cs
    | none => { t with columns := t.columns ++ [c] }.withUnknown cs

/-- The target table together with what only the known one has. -/
def merged (target : Table) (known : Option Table) : Table :=
  let t := { target with mappings := [] }
  match known with
  | none => t
  | some k =>
    { t.withUnknown k.columns with indexes := withUnknownIndexes t.indexes k.indexes }

end Table

end SqlMapper
