import SqlMapper.Catalog.Database
import SqlMapper.Exchange.Statements
import SqlMapper.Record.Entity

/-!
# Repositories

A repository stores and finds the records of one entity in one table. Columns and properties
correspond by the mapping that the table keeps for the entity.
-/

namespace SqlMapper

namespace Mapping

variable {e : Entity}

/-- The record of a row. Properties without a column keep their initial values. -/
def wrap (m : Mapping) (e : Entity) (r : Row) : Result (Record e) :=
  m.wrapCells (Record.initial e) r.cells

/-- The records of rows, up to the first that is none. -/
def wrapAll (m : Mapping) (e : Entity) : List Row → List (Record e) × Option Failure
  | [] => ([], none)
  | r :: rs =>
    match m.wrap e r with
    | .error failure => ([], some failure)
    | .ok record =>
      let (records, failure) := m.wrapAll e rs
      (record :: records, failure)

end Mapping

/-- The records of an entity in a table. -/
structure Repository (e : Entity) where
  table : Table
  dialect : Dialect
  mapping : Mapping
  chunkSize : Nat

namespace Repository

variable {e : Entity}

/-- Opens a repository on the table that a name addresses. The table in the database keeps the
mapping. -/
def new (e : Entity) (db : Database) (name : String) : Result (Repository e × Database) := do
  let table ← db.table name
  let (mapping, table) := table.mapping e.name e.propertyNames
  let schema := (Database.address name).1.getD db.currentSchema
  return ({ table, dialect := db.dialect, mapping, chunkSize := db.chunkSize },
    db.putInto schema table)

/-- The place of failures of an operation. -/
def site (r : Repository e) (operation : Operation) : Site := ⟨operation, r.table.name, none⟩

def query (r : Repository e) : Query := { table := r.table, dialect := r.dialect }

def update (r : Repository e) : Update := { table := r.table, dialect := r.dialect }

def deletion (r : Repository e) : Delete := { table := r.table, dialect := r.dialect }

/-- The cells of a record in the order of the mapped columns. -/
def rowOf (r : Repository e) (record : Record e) : List Value :=
  r.mapping.entries.map fun entry => (record.get? entry.2).getD .null

/-- The insertion of records into the mapped columns. -/
def insertion (r : Repository e) (records : List (Record e)) : Insert :=
  { table := r.table
    dialect := r.dialect
    columns := r.mapping.entries.map Prod.fst
    rows := records.map r.rowOf }

/-- The condition that selects the row with a key of one column. -/
def idCondition (r : Repository e) (id : Value) : Result Condition :=
  match r.table.key with
  | [c] => .ok (Condition.compare c.name .equal [id])
  | key => .error (.metadata (r.site .query) (.lookupNeedsSingleKey key.length))

/-- The cell of a record for a column, if the column is mapped. -/
def cellOf? (r : Repository e) (record : Record e) (column : String) : Option Value :=
  (r.mapping.entries.find? (·.1 == column)).bind fun entry => record.get? entry.2

/-- Adds to a filter that each column equals the cell of the record. -/
def keyFilter (r : Repository e) (record : Record e) (filter : Option Condition) :
    List Column → Result (Option Condition)
  | [] => .ok filter
  | c :: cs =>
    match r.cellOf? record c.name with
    | none => .error (.metadata { r.site .update with column := some c.name } .keyNotMapped)
    | some v =>
      r.keyFilter record (Condition.added filter (Condition.compare c.name .equal [v])) cs

/-- The condition that selects the row with the key of a record. -/
def keyCondition (r : Repository e) (record : Record e) : Result Condition := do
  match ← r.keyFilter record none r.table.key with
  | some c => return c
  | none => throw (.metadata (r.site .update) .noKey)

/-! ### Storing -/

/-- Inserts a record and gives the count of rows. -/
def insert (r : Repository e) (record : Record e) : Exchange UInt64 := do
  let affected ← (r.insertion [record]).execute
  return affected.rows

/-- Inserts a record, waits for it, and gives the count of rows. -/
def insertWhole (r : Repository e) (record : Record e) : Exchange UInt64 := do
  let affected ← (r.insertion [record]).executeWhole
  return affected.rows

/-- Cuts a list into runs of `n`, the last one possibly shorter; `fuel` bounds their count. -/
def chunksFrom (n : Nat) : (fuel : Nat) → List α → List (List α)
  | 0, _ => []
  | _, [] => []
  | fuel + 1, xs => xs.take n :: chunksFrom n fuel (xs.drop n)

/-- Cuts a list into runs of `n`, the last one possibly shorter. -/
def chunks (n : Nat) (xs : List α) : List (List α) := chunksFrom n xs.length xs

/-- The statements of each chunk, compiled before any is sent. -/
def compileChunks (r : Repository e) : List (List (Record e)) → Result (List (List Request))
  | [] => .ok []
  | chunk :: rest => do
    let requests ← (r.insertion chunk).compile
    let chunks ← r.compileChunks rest
    return requests :: chunks

/-- The statements of a batch under the indexes of their chunks. -/
def indexed (index : Nat) : List (List Request) → List (Nat × Request)
  | [] => []
  | requests :: chunks => requests.map (index, ·) ++ indexed (index + 1) chunks

/-- Runs the statements of a batch in order. The first failure tells how far the batch came. -/
def runBatch (site : Site) (chunks : Nat) (completed : UInt64) : List (Nat × Request) → Exchange UInt64
  | [] => return completed
  | (index, request) :: rest =>
    ExceptT.mk fun w =>
      match (Exchange.execute site request).runOver w with
      | (.error failure, w) => (.error (failure.under (.batch ⟨completed, index, chunks⟩)), w)
      | (.ok affected, w) => (runBatch site chunks (completed + affected.rows) rest).runOver w

/-- Inserts records in chunks of a given size, or of the size that the database asks for, and gives
the count of rows. -/
def insertBatch (r : Repository e) (records : List (Record e)) (chunkSize : Option Nat) :
    Exchange UInt64 := do
  if records.isEmpty then return 0
  let n := chunkSize.getD r.chunkSize
  if n = 0 then throw (.compile (r.site .insert) .chunkSizeZero)
  let compiled ← Exchange.ofResult (r.compileChunks (chunks n records))
  runBatch (r.site .insert) compiled.length 0 (indexed 0 compiled)

/-- Runs the statements of one chunk, waiting for each. A failure tells how far the batch came. -/
def runChunk (site : Site) (chunks index : Nat) (completed : UInt64) :
    List Request → Exchange UInt64
  | [] => return completed
  | request :: rest => do
    let affected ← (Exchange.executeWhole site request).within (.batch ⟨completed, index, chunks⟩)
    runChunk site chunks index (completed + affected.rows) rest

/-- Runs chunks one after another; the first of them has the index. -/
def runChunks (site : Site) (chunks index : Nat) (completed : UInt64) :
    List (List Request) → Exchange UInt64
  | [] => return completed
  | requests :: later => do
    let completed ← runChunk site chunks index completed requests
    runChunks site chunks (index + 1) completed later

/-- Inserts records in chunks as `insertBatch` does, chunk by chunk and waiting for each request. -/
def insertBatchWhole (r : Repository e) (records : List (Record e)) (chunkSize : Option Nat) :
    Exchange UInt64 := do
  if records.isEmpty then return 0
  let n := chunkSize.getD r.chunkSize
  if n = 0 then throw (.compile (r.site .insert) .chunkSizeZero)
  let compiled ← Exchange.ofResult (r.compileChunks (chunks n records))
  runChunks (r.site .insert) compiled.length 0 0 compiled

/-- The update of the mapped columns outside the key; none when there are no such columns. -/
def updateOf? (r : Repository e) (record : Record e) (c : Condition) : Option Update :=
  let assignments := (r.mapping.values record).filter fun cell =>
    (r.table.find? cell.1).any fun column => !column.isKey
  if assignments.isEmpty then none
  else some { r.update.narrow c with assignments }

/-- Inserts a record, or updates the row that has its key: in one statement where the dialect can,
else by counting such rows first. Gives the count of rows. -/
def save (r : Repository e) (record : Record e) : Exchange UInt64 := do
  match ← Exchange.ofResult { r.insertion [record] with upsert := true }.compileUpsert with
  | some requests =>
    let affected ← Exchange.executeAll (r.site .insert) requests
    return affected.rows
  | none =>
    let c ← Exchange.ofResult (r.keyCondition record)
    let found ← (r.query.narrow c).count
    if found = 0 then r.insert record
    else
      match r.updateOf? record c with
      | some u =>
        let affected ← u.execute
        return affected.rows
      | none => return 0

/-- Deletes the row with a key and gives the count of rows. -/
def deleteById (r : Repository e) (id : Value) : Exchange UInt64 := do
  let c ← Exchange.ofResult (r.idCondition id)
  let affected ← (r.deletion.narrow c).execute
  return affected.rows

/-! ### Finding -/

/-- Takes records of a query until there are enough, and says what ended them early. -/
def stream (r : Repository e) (q : Query) (take : Option Nat) (w : Wire) :
    (List (Record e) × Option Failure) × Wire :=
  let stop (row : Row) : Bool := match r.mapping.wrap e row with
    | .ok _ => false
    | .error _ => true
  let ((rows, failure), w) := q.stream take stop w
  let (records, unreadable) := r.mapping.wrapAll e rows
  ((records, unreadable.orElse fun _ => failure), w)

/-- All records of a query, taken one by one. -/
def collect (r : Repository e) (q : Query) : Exchange (List (Record e)) :=
  ExceptT.mk fun w =>
    let ((records, failure), w) := r.stream q none w
    (failure.elim (.ok records) .error, w)

/-- All records of a query, made of the whole reply. -/
def fetch (r : Repository e) (q : Query) : Exchange (List (Record e)) := do
  let rows ← q.fetch
  match r.mapping.wrapAll e rows with
  | (records, none) => return records
  | (_, some failure) => throw failure

/-- The first record of a query, or of its page. -/
def fetchOne (r : Repository e) (q : Query) : Exchange (Option (Record e)) :=
  ExceptT.mk fun w =>
    let ((records, failure), w) := r.stream q.first (some 1) w
    match records.head? with
    | some record => (.ok (some record), w)
    | none => (failure.elim (.ok none) .error, w)

/-- The record with a key, asked for as the first of a query. -/
def findById (r : Repository e) (id : Value) : Exchange (Option (Record e)) := do
  let c ← Exchange.ofResult (r.idCondition id)
  r.fetchOne (r.query.narrow c)

/-- The record with a key, out of a whole reply of at most one row. -/
def findByIdWhole (r : Repository e) (id : Value) : Exchange (Option (Record e)) := do
  let c ← Exchange.ofResult (r.idCondition id)
  let records ← r.fetch ((r.query.narrow c).limit 1)
  return records.head?

end Repository

end SqlMapper
