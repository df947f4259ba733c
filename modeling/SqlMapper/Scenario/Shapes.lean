import SqlMapper.Scenario.Basic
import SqlMapper.Text.Occurrence

/-!
# Scenario on migrations

A table is created, found unchanged, extended, found unchanged by a shorter declaration, altered,
and refused another primary key.
-/

namespace SqlMapper.Scenario.Shapes

def title (length : Nat) : Column :=
  { Column.ofTy "title" .text with length := some length, nullable := false }

def table : Table where
  name := "ddl_test"
  columns := [
    (Column.ofTy "id" (.integer .int64)).asKey,
    { title 64 with comment := "Shown in lists" }]
  indexes := [{ name := "ddl_test_title", columns := [("title", .ascending)] }]

def score : Column :=
  { Column.ofTy "score" (.option (.integer .int32)) with default := some (.int32 0) }

def wider : Table := table.put (title 128)

/-- The table with the title as its key. -/
def rekeyed : Table :=
  { table with columns := table.columns.map fun c => { c with isKey := c.name == "title" } }

def creating : Scenario Unit := do
  let s : Session := { target := table }
  require (s.state == .new)
  require (!(← plan s).isEmpty)
  let _ ← commit s

/-- The same declaration asks for nothing. -/
def repeating : Scenario Unit := do
  let s : Session := { target := table }
  require (← plan s).isEmpty
  require ((← commit s) == 0)

/-- A column is added, and rows have its default. -/
def extending : Scenario Unit := do
  let s := Session.addColumn { target := table } score
  require (s.state == .columnsAdded 1)
  let requests ← plan s
  require (requests.length == 1)
  require (requests.all fun r => Text.contains "ADD COLUMN" r.sql)
  require ((← commit s) == 1)
  let db ← database
  let t ← take (db.table "ddl_test")
  let _ ← exchange (Insert.execute
    { table := t
      dialect := db.dialect
      columns := ["id", "title"]
      rows := [[.int64 1, .ofText "first"]] })
  let q : Query := { table := t, dialect := db.dialect, columns := ["score"] }
  let request ← take (q.narrow (.compare "id" .equal [.int64 1])).compile
  let rows ← exchange (Exchange.fetch (q.site .query) request fun _ _ => false)
  match rows with
  | [row] =>
    let cell ← present (← take (row.find? "score"))
    match Ty.toInteger .int32 cell with
    | .ok n => require (n.val == 0)
    | .error _ => throw .ended
  | _ => throw .ended

/-- Columns that a declaration leaves out stay. -/
def shortening : Scenario Unit := do
  require (← plan { target := table }).isEmpty
  let t ← take ((← database).table "ddl_test")
  require (t.find? "score").isSome

def widening : Scenario Unit := do
  require ((← plan { target := wider }).length == 1)
  let _ ← commit { target := wider }

/-- Migrations of one table, each on what the ones before left. -/
def migrations : Scenario Unit := do
  creating
  repeating
  extending
  shortening
  widening
  require (← refusal (plan { target := rekeyed })).isMetadata

end SqlMapper.Scenario.Shapes
