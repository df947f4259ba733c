import SqlMapper.Catalog.Database
import SqlMapper.Exchange.Wire
import SqlMapper.Migration.Plan

/-!
# Migration sessions

A session brings one table of a database to a target. Its commit runs the planned steps in order and
registers what they made of the known table: all of it when every statement ran, else the part up to
the step that failed, so that the next commit goes on from there.
-/

namespace SqlMapper

/-- How far a session is. -/
inductive SessionState where
  | new
  /-- Columns have been added to the target. -/
  | columnsAdded (n : Nat)
  /-- Every statement ran. -/
  | committed
  deriving DecidableEq, Repr

namespace SessionState

def message : SessionState → String
  | new => "New"
  | columnsAdded n => "ColumnsAdded(" ++ toString n ++ ")"
  | committed => "Committed"

/-- The state after one more column. A committed session stays committed. -/
def afterColumn : SessionState → SessionState
  | new => columnsAdded 1
  | columnsAdded n => columnsAdded (n + 1)
  | committed => committed

end SessionState

/-- A migration of one table. -/
structure Session where
  target : Table
  state : SessionState := .new

namespace Session

/-- Adds a column to the target, or replaces one. -/
def addColumn (s : Session) (c : Column) : Session := ⟨s.target.put c, s.state.afterColumn⟩

def site (s : Session) : Site := ⟨.ddl, s.target.name, none⟩

/-- The table that the database knows under the name of the target. -/
def known? (s : Session) (db : Database) : Option Table :=
  db.findTable? (if s.target.schema.isEmpty then none else some s.target.schema) s.target.name

/-- The steps from the known table to the target. -/
def plan (s : Session) (db : Database) : Result (List Step) :=
  Plan.steps db.dialect (s.known? db) s.target

def stepRequests (s : Session) (db : Database) (step : Step) : List Request :=
  step.edits.map (Edit.request db.dialect s.target)

/-- The statements of all steps in order. -/
def compile (s : Session) (db : Database) : Result (List Request) := do
  let steps ← s.plan db
  return steps.flatMap (s.stepRequests db)

/-- What running some steps came to: the table after the steps that ran, if any did, the count of
statements that ran, and the failure that ended them. -/
structure Progress where
  table : Option Table
  applied : Bool := false
  count : Nat := 0
  failure : Option Failure := none

/-- Runs statements in order, up to the first that fails; counts those that ran. -/
def runRequests (site : Site) (count : Nat) (w : Wire) :
    List Request → (Nat × Option Failure) × Wire
  | [] => ((count, none), w)
  | r :: rs =>
    match (Exchange.execute site r).runOver w with
    | (.error e, w) => ((count, some e), w)
    | (.ok _, w) => runRequests site (count + 1) w rs

/-- Runs steps in order, up to the first whose statements do not all run. -/
def runSteps (s : Session) (db : Database) (p : Progress) (w : Wire) :
    List Step → Progress × Wire
  | [] => (p, w)
  | step :: steps =>
    match runRequests s.site p.count w (s.stepRequests db step) with
    | ((count, some e), w) => ({ p with count, failure := some e }, w)
    | ((count, none), w) =>
      let table := step.change.apply s.target (p.table.getD { name := "" })
      runSteps s db { table := some table, applied := true, count } w steps

/-- Runs the planned steps. Gives the count of statements or the failure, the session and the
database after it. -/
def commit (s : Session) (db : Database) (w : Wire) : Result Nat × Session × Database × Wire :=
  match s.plan db with
  | .error e => (.error e, s, db, w)
  | .ok steps =>
    let known := s.known? db
    match runSteps s db { table := known } w steps with
    | ({ failure := some e, table := some t, applied := true, .. }, w) => (.error e, s, db.put t, w)
    | ({ failure := some e, .. }, w) => (.error e, s, db, w)
    | ({ count, .. }, w) =>
      (.ok count, { s with state := .committed }, db.put (s.target.merged known), w)

/-! ### Waiting for each statement -/

/-- Runs the statements of a step, waiting for each, and counts them. -/
def runWhole (site : Site) (count : Nat) : List Request → Exchange Nat
  | [] => return count
  | r :: rs => do
    let _ ← Exchange.executeWhole site r
    runWhole site (count + 1) rs

/-- The database after a commit that failed. It knows what some steps made of the table, if any step
was applied. -/
def registerApplied (db : Database) (known : Option Table) (applied : Bool) : Database :=
  match known.filter fun _ => applied with
  | some t => db.put t
  | none => db

/-- Runs steps in order and registers at once what they come to: with the last one the target, with a
failure the steps before it. -/
def commitSteps (s : Session) (db : Database) (known : Option Table) (applied : Bool) (count : Nat)
    (w : Wire) : List Step → Result Nat × Session × Database × Wire
  | [] =>
    (.ok count, { s with state := .committed }, db.put (s.target.merged (s.known? db)), w)
  | step :: steps =>
    match (runWhole s.site count (s.stepRequests db step)).runOver w with
    | (.error e, w) => (.error e, s, registerApplied db known applied, w)
    | (.ok count, w) =>
      let table := step.change.apply s.target (known.getD { name := "" })
      s.commitSteps db (some table) true count w steps

/-- Runs the planned steps, waiting for each statement. -/
def commitWhole (s : Session) (db : Database) (w : Wire) :
    Result Nat × Session × Database × Wire :=
  match s.plan db with
  | .error e => (.error e, s, db, w)
  | .ok steps => s.commitSteps db (s.known? db) false 0 w steps

end Session

end SqlMapper
