import Mathlib
import SqlMapper.Proofs.Catalog.Placement
import SqlMapper.Scenario.Run

/-! Scenarios and the database that they work on. Whatever the wire answers and wherever a part ends, the
database behind it is one that can be come to from the one before. So what holds of all such databases
holds of the one that a run leaves, be it passed or not. -/
namespace SqlMapper

set_option mvcgen.warning false

open Std.Do
open Column (Distinct)

namespace Scenario

variable {α : Type}

/-- A part of a scenario, ended early or not, keeps to databases that can be come to. -/
abbrev Keeps (x : Scenario α) : Prop :=
  ⦃fun stage => ⌜stage.database.Reached⌝⦄ x
  ⦃post⟨fun _ stage => ⌜stage.database.Reached⌝, fun _ stage => ⌜stage.database.Reached⌝⟩⦄

theorem keeps_iff {x : Scenario α} : Keeps x ↔
    ∀ stage : Stage, stage.database.Reached → ((ExceptT.run x).run stage).2.database.Reached := by
  refine forall_congr' fun stage => imp_congr_right fun _ => ?_
  rcases h : (ExceptT.run x).run stage with ⟨_ | _, after⟩ <;>
  · simp [wp, h]
    rfl

/-! ### Steps -/

/-- An exchange knows the wire only. -/
@[spec]
theorem keeps_exchange (x : Exchange α) : Keeps (exchange x) := keeps_iff.mpr fun _ h => h

@[spec]
theorem keeps_take (r : Result α) : Keeps (take r) := keeps_iff.mpr fun _ h => h

@[spec]
theorem keeps_database : Keeps database := by
  mvcgen [database]

@[spec]
theorem keeps_require (holds : Bool) : Keeps (require holds) := by
  mvcgen [require]

@[spec]
theorem keeps_present (found : Option α) : Keeps (present found) := by
  mvcgen [present]

/-- A step that should fail keeps to what the step keeps to, whether it fails or not. -/
@[spec]
theorem keeps_refusal {step : Scenario α} (h : Keeps step) : Keeps (refusal step) := by
  refine keeps_iff.mpr fun stage hStage => ?_
  have hAfter := keeps_iff.mp h stage hStage
  have hRun : ((ExceptT.run (refusal step)).run stage).2 = ((ExceptT.run step).run stage).2 := by
    simp only [refusal, ExceptT.run_mk, StateT.run]
    split <;> simp_all [StateT.run]
  rwa [hRun]

/-- A migration that stops in the middle has come to a database as well. -/
@[spec]
theorem keeps_commit (s : Session) : Keeps (commit s) := keeps_iff.mpr fun _ h => h.commit rfl

@[spec]
theorem keeps_plan (s : Session) : Keeps (plan s) := by
  mvcgen [plan]

/-- Opening a repository goes on with what the database makes of it. -/
theorem repository_eq (e : Entity) (name : String) (stage : Stage) :
    (ExceptT.run (repository e name)).run stage =
      (ExceptT.run (take (Repository.new e stage.database name) >>= fun opened => do
        modify fun stage => { stage with database := opened.2 }
        return opened.1)).run stage := rfl

/-- A repository that is refused leaves the database as it was. -/
@[spec]
theorem keeps_repository (e : Entity) (name : String) : Keeps (repository e name) := by
  refine keeps_iff.mpr fun stage h => ?_
  rw [repository_eq]
  cases hNew : Repository.new e stage.database name with
  | ok opened => exact h.openRepository hNew
  | error f => exact h

@[spec]
theorem keeps_collect {e : Entity} (r : Repository e) (q : Query) : Keeps (collect r q) := by
  mvcgen [collect]

@[spec]
theorem keeps_requireCount (q : Query) (n : Nat) : Keeps (requireCount q n) := by
  mvcgen [requireCount]

/-- One step for each member of a list. -/
theorem keeps_forM {step : α → Scenario Unit} (h : ∀ a, Keeps (step a)) (as : List α) :
    Keeps (as.forM step) := by
  induction as with
  | nil => mvcgen
  | cons a as ih =>
      change Keeps (step a >>= fun _ => as.forM step)
      mvcgen [h, ih]

/-! ### Scenarios -/

@[spec]
theorem keeps_storing : Keeps Texts.storing := by
  mvcgen [Texts.storing, Texts.records]

@[spec]
theorem keeps_requireRefused {step : Scenario α} (h : Keeps step) :
    Keeps (Texts.requireRefused step) := by
  mvcgen [Texts.requireRefused, h]

@[spec]
theorem keeps_guards : Keeps Texts.guards := by
  mvcgen [Texts.guards, Texts.records]

@[spec]
theorem keeps_saving : Keeps Texts.saving := by
  mvcgen [Texts.saving, Texts.records]

@[spec]
theorem keeps_hostileFrom (r : Repository Texts.entity) (number : Nat) (texts : List String) :
    Keeps (Texts.hostileFrom r number texts) := by
  induction texts generalizing number with
  | nil => mvcgen [Texts.hostileFrom]
  | cons text texts ih => mvcgen [Texts.hostileFrom, Texts.hostileText, ih]

@[spec]
theorem keeps_hostile : Keeps Texts.hostile := by
  mvcgen [Texts.hostile, Texts.records]

@[spec]
theorem keeps_pages (r : Repository Items.entity) (seen : List (Record Items.entity))
    (count index : Nat) : Keeps (Items.pages r seen count index) := by
  induction count generalizing seen index with
  | zero => mvcgen [Items.pages]
  | succ count ih => mvcgen [Items.pages, ih]

@[spec]
theorem keeps_paging : Keeps Items.paging := by
  mvcgen [Items.paging]

@[spec]
theorem keeps_requireCounts (q : Query) (counts : List (Condition × Nat)) :
    Keeps (Items.requireCounts q counts) := by
  induction counts with
  | nil => mvcgen [Items.requireCounts]
  | cons count counts ih => mvcgen [Items.requireCounts, ih]

@[spec]
theorem keeps_filtering : Keeps Items.filtering := by
  have hMalformed (q : Query) : Keeps (Items.malformed.forM fun c => do
      require (← refusal (exchange (q.narrow c).count)).isCompile) := by
    refine keeps_forM (fun c => ?_) _
    mvcgen
  mvcgen [Items.filtering, Items.query, hMalformed]

@[spec]
theorem keeps_batches : Keeps Readings.batches := by
  mvcgen [Readings.batches]

@[spec]
theorem keeps_migrations : Keeps Shapes.migrations := by
  mvcgen [Shapes.migrations, Shapes.creating, Shapes.repeating, Shapes.extending, Shapes.shortening,
    Shapes.widening]

@[spec]
theorem keeps_roundTrips : Keeps Samples.roundTrips := by
  mvcgen [Samples.roundTrips, Samples.requireFound]

/-- All scenarios in order, up to the first that ends the run. -/
theorem keeps_all : Keeps all := by
  mvcgen [all]

/-- In the database that a run leaves, whatever was answered, each table stands under its own name and
under its own schema if it names one, and its columns have distinct names. -/
theorem tidy_run (d : Dialect) (chunkSize : Option Nat) (w : Wire) {schema name : String} {t : Table}
    (h : (((ExceptT.run all).run ⟨{ features := { dialect := some d, chunkSize } }, w⟩).2.database.slot?
      schema name) = some t) :
    Text.lowerCase t.name = Text.lowerCase name ∧ Distinct t.columns ∧
      (t.schema = "" ∨ t.schema = schema) := by
  have hReached := keeps_iff.mp keeps_all ⟨{ features := { dialect := some d, chunkSize } }, w⟩
    (.setFeatures (.new d) _)
  obtain ⟨hName, hDistinct⟩ := hReached.tidy schema name t h
  exact ⟨hName, hDistinct, hReached.filed schema name t h⟩

end Scenario

end SqlMapper
