import SqlMapper.Condition.Sql
import SqlMapper.Number.Power
import SqlMapper.Statement.Reference

/-!
# Queries

A query selects columns of the rows that a filter holds for, sorted by keys, and returns a window of
the sorted result. Its count ignores sorting and window.
-/

namespace SqlMapper

/-- The rows of a result that are asked for. -/
inductive Window where
  /-- The rows from `index * size` on, at most `size` of them. -/
  | page (index size : Nat)
  /-- The first rows. -/
  | limit (n : Nat)
  deriving DecidableEq, Repr

/-- The first count of rows that no window can skip. -/
def rowCountLimit : Nat := twoTo 64

/-- A query on one table. -/
structure Query where
  table : Table
  dialect : Dialect
  columns : List String := []
  filter : Option Condition := none
  order : List (String × Direction) := []
  window : Option Window := none
  /-- Only the first row of the window is wanted. -/
  firstOnly : Bool := false

namespace Query

/-- The place of failures of an operation. -/
def site (q : Query) (operation : Operation) : Site := ⟨operation, q.table.name, none⟩

def narrow (q : Query) (c : Condition) : Query :=
  { q with filter := Condition.added q.filter c }

/-- Adds a sort key after those there are. -/
def orderBy (q : Query) (column : String) (direction : Direction) : Query :=
  { q with order := q.order ++ [(column, direction)] }

/-- Asks for a page, instead of any other window. -/
def page (q : Query) (index size : Nat) : Query := { q with window := some (.page index size) }

/-- Asks for the first rows, instead of any other window. -/
def limit (q : Query) (n : Nat) : Query := { q with window := some (.limit n) }

/-- Narrows the window to its first row, whenever the window is set. -/
def first (q : Query) : Query := { q with firstOnly := true }

/-- The rows skipped and the most rows returned, as the window says. -/
def windowBounds (q : Query) : Result (Option (Nat × Nat)) :=
  match q.window with
  | none => .ok none
  | some (.limit n) => .ok (some (0, n))
  | some (.page index size) =>
    if size = 0 then .error (.compile (q.site .query) .pageSizeZero)
    else if rowCountLimit ≤ index * size then
      .error (.compile (q.site .query) (.pageOutOfRange index size))
    else .ok (some (index * size, size))

/-- The rows skipped and the most rows returned. -/
def bounds (q : Query) : Result (Option (Nat × Nat)) := do
  let window ← q.windowBounds
  if !q.firstOnly then return window
  match window with
  | none => return some (0, 1)
  | some (offset, n) => return some (offset, min n 1)

/-- The sort keys with their columns looked up. -/
def sortKeys (t : Table) : List (String × Direction) → Result (List (Column × Direction))
  | [] => .ok []
  | (name, direction) :: rest => do
    let c ← t.column name .query
    let keys ← sortKeys t rest
    return (c, direction) :: keys

end Query

namespace Direction

def word : Direction → String
  | ascending => " ASC"
  | descending => " DESC"

end Direction

namespace Query

def orderSql (keys : List (Column × Direction)) : Sql :=
  if keys.isEmpty then []
  else .text "\nORDER BY " :: Sql.joined ", " (keys.map fun key =>
    [.name key.1.name, .text key.2.word])

def windowSql (d : Dialect) : Option (Nat × Nat) → Sql
  | none => []
  | some (offset, n) => [.text "\n", .text (d.windowText offset n)]

/-- The statement that returns the rows. -/
def compile (q : Query) : Result Request := do
  let columns ← q.table.columnsOrAll .query q.columns
  let keys ← sortKeys q.table q.order
  let window ← q.bounds
  let clause ← Condition.clause q.dialect q.table .query (Condition.effective q.filter)
  return q.dialect.request
    (.text "SELECT " :: Column.nameList columns ++ .text "\nFROM " :: q.table.reference ++
      clause ++ orderSql keys ++ windowSql q.dialect window)

/-- The statement that counts the rows of the whole result. -/
def countRequest (q : Query) : Result Request := do
  let clause ← Condition.clause q.dialect q.table .count (Condition.effective q.filter)
  return q.dialect.request
    (.text "SELECT COUNT(*) AS total\nFROM " :: q.table.reference ++ clause)

end Query

end SqlMapper
