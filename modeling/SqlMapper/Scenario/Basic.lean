import SqlMapper.Migration.Session
import SqlMapper.Record.Repository

/-!
# Scenarios

A scenario works on one database over one wire and checks what it gets. It asks for items one by
one, as callers do who need not wait for whole replies. The first failed check, and the first failure
of a step that should succeed, end the run.
-/

namespace SqlMapper

/-- What a scenario works on. -/
structure Stage where
  database : Database
  wire : Wire

/-- A part of a scenario. The stage keeps what a failed part did. -/
abbrev Scenario (α : Type) := ExceptT Failure (StateM Stage) α

namespace Scenario

def database : Scenario Database := return (← get).database

def take (r : Result α) : Scenario α := ExceptT.mk (pure r)

def exchange (x : Exchange α) : Scenario α :=
  ExceptT.mk fun stage =>
    let (result, wire) := x.runOver stage.wire
    (result, { stage with wire })

/-- Ends the run unless the check holds. -/
def require (holds : Bool) : Scenario Unit := if holds then return () else throw .ended

/-- What is there, ending the run when nothing is. -/
def present : Option α → Scenario α
  | some a => return a
  | none => throw .ended

/-- The failure of a step, ending the run when the step succeeds. -/
def refusal (step : Scenario α) : Scenario Failure :=
  ExceptT.mk fun stage =>
    match step.run.run stage with
    | (.ok _, stage) => (.error .ended, stage)
    | (.error e, stage) => (.ok e, stage)

/-- Brings a table of the database to its target and gives the count of statements. -/
def commit (s : Session) : Scenario Nat :=
  ExceptT.mk fun stage =>
    let (result, _, database, wire) := s.commit stage.database stage.wire
    (result, { database, wire })

def plan (s : Session) : Scenario (List Request) := do take (s.compile (← database))

def repository (e : Entity) (table : String) : Scenario (Repository e) := do
  let (r, db) ← take (Repository.new e (← database) table)
  modify fun stage => { stage with database := db }
  return r

def collect {e : Entity} (r : Repository e) (q : Query) : Scenario (List (Record e)) :=
  exchange (r.collect q)

/-- Ends the run unless the query counts this many rows. -/
def requireCount (q : Query) (n : Nat) : Scenario Unit := do
  require ((← exchange q.count) == n)

end Scenario

namespace Record

/-- Equality of lists of records, record by record. -/
def sameAll {e : Entity} : List (Record e) → List (Record e) → Bool
  | [], [] => true
  | r :: rs, s :: ss => r.same s && sameAll rs ss
  | _, _ => false

end Record

namespace Failure

/-- A statement was malformed or refused. -/
def isCompile (f : Failure) : Bool := f.layers.any fun
  | .compile _ _ => true
  | _ => false

/-- The declarations were contradicted. -/
def isMetadata (f : Failure) : Bool := f.layers.any fun
  | .metadata _ _ => true
  | _ => false

def isExecution (f : Failure) : Bool := f.layers.any fun
  | .execution _ _ => true
  | _ => false

/-- How far a batch came before the failure. -/
def batch? (f : Failure) : Option BatchFailure := f.layers.findSome? fun
  | .batch b => some b
  | _ => none

end Failure

namespace Value

def ofText (s : String) : Value := text (some s)

/-- An integer of 32 bits; none becomes a missing one. -/
def int32 (n : Int) : Value := integer .int32 (Integer.ofInt? .int32 n)

/-- An integer of 64 bits; none becomes a missing one. -/
def int64 (n : Int) : Value := integer .int64 (Integer.ofInt? .int64 n)

end Value

end SqlMapper
