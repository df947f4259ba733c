import SqlMapper.Scenario.Items
import SqlMapper.Scenario.Readings
import SqlMapper.Scenario.Samples
import SqlMapper.Scenario.Shapes
import SqlMapper.Scenario.Texts

/-!
# The run of all scenarios

All scenarios run in order on one database, up to the first that ends the run.
-/

namespace SqlMapper.Scenario

/-- All scenarios. Later ones use the tables of earlier ones. -/
def all : Scenario Unit := do
  Texts.storing
  Items.paging
  Readings.batches
  Texts.guards
  Shapes.migrations
  Texts.saving
  Samples.roundTrips
  Texts.hostile
  Items.filtering

/-- What a run came to. -/
structure Outcome where
  /-- No check failed. -/
  passed : Bool
  sent : List Request
  pulled : Nat
  /-- Replies not taken. -/
  left : Nat

/-- Runs all scenarios on a database without tables over a wire that gives fixed replies. -/
def run (d : Dialect) (chunkSize : Option Nat) (mode : Mode) (replies : List Reply) : Outcome :=
  let database : Database := { features := { dialect := some d, chunkSize } }
  let (result, stage) := (ExceptT.run all).run { database, wire := .scripted mode replies }
  { passed := match result with
      | .ok _ => true
      | .error _ => false
    sent := stage.wire.sent
    pulled := stage.wire.pulled
    left := replies.length - stage.wire.sent.length }

end SqlMapper.Scenario
