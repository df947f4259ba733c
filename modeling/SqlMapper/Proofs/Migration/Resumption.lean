import SqlMapper.Proofs.Catalog.Reached
import SqlMapper.Proofs.Migration.Idempotence
import SqlMapper.Proofs.Migration.Remainder

/-! Migrations that are tried until they succeed. Each attempt goes on where the one before it was
stopped, so that all attempts together run the statements of the first plan once and in order, and
the last one registers what a single attempt would have. -/
namespace SqlMapper

open Column (Apart Distinct)
open Table (Compatible)

namespace Session

variable {s s' : Session} {db db' : Database} {w u : Wire} {e : Failure} {done rest steps : List Step}
  {ran : List Request} {refused : Request}

/-- The table that the session knows is in the place of the target and can be known there. -/
def Placed (s : Session) (db : Database) : Prop :=
  ∀ k, s.known? db = some k → db.schemaOf k = db.schemaOf s.target ∧
    Text.lowerCase k.name = Text.lowerCase s.target.name ∧ Compatible s.target k

/-- After some steps the session is in place to go on with the others. -/
theorem plan_kept (hResumable : s.target.Resumable) (hPlaced : s.Placed db)
    (hPlan : s.plan db = .ok (done ++ rest)) :
    s.Placed (s.kept db done) ∧ s.plan (s.kept db done) = .ok rest ∧
      (s.kept db done).dialect = db.dialect ∧
      (s.kept db done).put (s.target.merged (s.known? (s.kept db done))) =
        db.put (s.target.merged (s.known? db)) := by
  cases done with
  | nil => exact ⟨hPlaced, hPlan, rfl, rfl⟩
  | cons first done =>
      obtain ⟨k, hAfter, hWay, hRest⟩ := Plan.steps_tableAfter hResumable
        (fun k hk => (hPlaced k hk).2.2) hPlan
      have hPlace : db.schemaOf k = db.schemaOf s.target ∧
          Text.lowerCase k.name = Text.lowerCase s.target.name := by
        rw [Database.schemaOf, hWay.schema, hWay.name]
        cases hKnown : s.known? db with
        | none => exact ⟨rfl, rfl⟩
        | some known => exact ⟨(hPlaced known hKnown).1, (hPlaced known hKnown).2.1⟩
      obtain ⟨hSchema, hName⟩ := hPlace
      have hKept : s.kept db (first :: done) = db.put k := by
        rw [kept, hAfter]
        rfl
      have hKnown : s.known? (db.put k) = some k := known?_put hSchema hName
      rw [hKept, plan, hKnown]
      refine ⟨?_, hRest, rfl, ?_⟩
      · intro k' hk'
        obtain rfl := Option.some.inj (hKnown.symm.trans hk')
        exact ⟨hSchema, hName, hWay.compatible⟩
      · rw [hWay.merged]
        refine Database.put_put db ?_ (by rw [hName, Table.merged_name])
        rw [hSchema, Database.schemaOf, Database.schemaOf, Table.merged_schema]

/-- A commit that failed at a statement has run all steps in front of it. -/
theorem commit_eq_error_of_sent (h : s.commit db w = (.error e, s', db', u))
    (hSent : u.sent = w.sent ++ ran ++ [refused]) :
    ∃ done rest, s.plan db = .ok (done ++ rest) ∧ ran = done.flatMap (s.stepRequests db) ∧
      db' = s.kept db done := by
  rcases commit_eq_error h with ⟨-, -, rfl⟩ | ⟨done, step, rest, within, r, later, hPlan, hWithin,
    ⟨v, hRan, hFailed⟩, hKept⟩
  · simp at hSent
  · -- The step that failed has no other statement, so none of its own ran before.
    have hMem : step ∈ done ++ step :: rest := by simp
    have hLength := Plan.length_edits_steps hPlan hMem
    have hNone : within = [] := by
      have hSame := congrArg List.length hWithin
      simp only [stepRequests, List.length_map, List.length_append, List.length_cons] at hSame
      exact List.length_eq_zero_iff.mp (by omega)
    have hLast := Wire.sent_execute s.site r v
    rw [hFailed, hRan.sent, hNone, List.append_nil] at hLast
    rw [hSent] at hLast
    obtain ⟨hRanEq, -⟩ := List.append_inj' hLast rfl
    exact ⟨done, step :: rest, hPlan, List.append_cancel_left hRanEq, hKept⟩

/-- Attempts to bring a database to a target: some that fail, each at a statement that is sent and
does not run, and a last one that succeeds. Listed are the statements that ran. -/
inductive Retried (target : Table) : Database → List Request → Database → Prop where
  | succeeded (state : SessionState) (w : Wire) (ran : List Request) {db db' : Database}
      {s' : Session} {u : Wire} {n : Nat}
      (committed : ({ target, state } : Session).commit db w = (.ok n, s', db', u))
      (sent : u.sent = w.sent ++ ran) : Retried target db ran db'
  | failed (state : SessionState) (w : Wire) (ran : List Request) {db mid db' : Database}
      {s' : Session} {u : Wire} {e : Failure} {rest : List Request} {refused : Request}
      (committed : ({ target, state } : Session).commit db w = (.error e, s', mid, u))
      (sent : u.sent = w.sent ++ ran ++ [refused]) (later : Retried target mid rest db') :
      Retried target db (ran ++ rest) db'

variable {target : Table}

/-- The first attempt had a plan. -/
theorem plan_of_retried (h : Retried target db ran db') :
    ∃ steps, ({ target } : Session).plan db = .ok steps := by
  cases h with
  | succeeded _ _ _ committed _ =>
      obtain ⟨steps, hPlan, -⟩ := commit_eq_ok committed
      exact ⟨steps, hPlan⟩
  | failed _ _ _ committed sent _ =>
      obtain ⟨done, rest, hPlan, -⟩ := commit_eq_error_of_sent committed sent
      exact ⟨done ++ rest, hPlan⟩

/-- All attempts together run the first plan and register what it registers. -/
theorem retried_of_placed (hResumable : target.Resumable)
    (hPlaced : ({ target } : Session).Placed db) (h : Retried target db ran db') :
    ∃ steps, ({ target } : Session).plan db = .ok steps ∧
      ran = steps.flatMap (({ target } : Session).stepRequests db) ∧
      db' = db.put (target.merged (({ target } : Session).known? db)) := by
  -- Each attempt leaves the session in place, with the rest of the plan before it.
  induction h with
  | succeeded _ _ _ committed sent =>
      obtain ⟨steps, hPlan, hRan, -, -, rfl⟩ := commit_eq_ok committed
      rw [hRan.sent] at sent
      exact ⟨steps, hPlan, (List.append_cancel_left sent).symm, rfl⟩
  | @failed state w ran db mid db' s' u e rest refused committed sent later ih =>
      obtain ⟨done, others, hPlan, rfl, rfl⟩ := commit_eq_error_of_sent committed sent
      obtain ⟨hPlaced', hRest, hDialect, hPut⟩ := plan_kept hResumable hPlaced hPlan
      obtain ⟨steps, hPlan', rfl, rfl⟩ := ih hPlaced'
      obtain rfl : others = steps := Except.ok.inj (hRest.symm.trans hPlan')
      refine ⟨done ++ others, hPlan, ?_, hPut⟩
      have hRequests : ({ target } : Session).stepRequests (({ target } : Session).kept db done) =
          ({ target } : Session).stepRequests db := by
        funext step
        rw [stepRequests, stepRequests, hDialect]
      rw [List.flatMap_append]
      exact congrArg _ (congrArg (List.flatMap · others) hRequests)

/-- However often a migration fails on its way, in the end all statements of its first plan ran, each
once and in order, and the database knows what a single commit that succeeds would have left. No
column asks for a property that has the name of another one, the known table is in the schema of the
target, indexes have distinct names, and no default is a missing list whose element type holds what
is no number. -/
theorem retried_eq (hReached : db.Reached)
    (hPlace : ∀ k, ({ target } : Session).known? db = some k → db.schemaOf k = db.schemaOf target)
    (hApart : Apart ((({ target } : Session).known? db).elim [] Table.columns ++ target.columns))
    (hIndexes : (target.indexes.map Index.name).Nodup)
    (hSettled : ∀ c ∈ target.columns, ∀ v, c.default = some v → v.Settled)
    (h : Retried target db ran db') :
    ({ target } : Session).compile db = .ok ran ∧
      ∀ {state s' single w u} {n : Nat},
        ({ target, state } : Session).commit db w = (.ok n, s', single, u) → single = db' := by
  obtain ⟨first, hFirst⟩ := plan_of_retried h
  have hResumable : target.Resumable :=
    { apart := hApart.of_subset (List.subset_append_right _ _)
      self := fun c hc => (Plan.sameDefault_self_iff (Plan.defaultPlanned_of_steps hFirst hc)).mpr
        (hSettled c hc)
      indexes := hIndexes }
  have hPlaced : ({ target } : Session).Placed db := by
    intro k hk
    obtain ⟨hName, hDistinct⟩ := hReached.tidy.known? hk
    refine ⟨hPlace k hk, hName, hDistinct, ?_⟩
    rw [hk] at hApart
    exact hApart
  obtain ⟨steps, hPlan, rfl, rfl⟩ := retried_of_placed hResumable hPlaced h
  refine ⟨?_, fun hCommit => ?_⟩
  · rw [compile, hPlan]
    rfl
  · obtain ⟨-, -, -, -, -, rfl⟩ := commit_eq_ok hCommit
    rfl

/-- The second statement of a new table fails once. -/
theorem retried_eq_refusedOnce :
    let target : Table :=
      { name := "t"
        columns := [(Column.ofTy "id" (.integer .int64)).asKey,
          { Column.ofTy "a" .text with mappedTo := "whole", comment := "new" }]
        indexes := [{ name := "i", columns := [("a", .ascending)] }] }
    let db := Database.new .generic
    ∃ ran db', Retried target db ran db' ∧ ran.length = 3 ∧
      ({ target } : Session).compile db = .ok ran ∧
      ∀ {state s' single w u} {n : Nat},
        ({ target, state } : Session).commit db w = (.ok n, s', single, u) → single = db' := by
  intro target db
  have hRetried : ∃ ran db', Retried target db ran db' ∧ ran.length = 3 := by
    dsimp +zetaDelta only
    exact ⟨_, _, .failed .new (.scripted .blocking [[], [.failure "disk full"]]) [_] rfl rfl
      (.succeeded .new (.scripted .blocking []) [_, _] rfl rfl), rfl⟩
  have hNone : ({ target } : Session).known? db = none := rfl
  have hApart : Apart ((({ target } : Session).known? db).elim [] Table.columns ++ target.columns) := by
    rw [hNone]
    simp [Apart, target, Column.ofTy, Column.new, Column.asKey]
  obtain ⟨ran, db', hRetried, hCount⟩ := hRetried
  obtain ⟨hCompile, hSingle⟩ := retried_eq (.new .generic) (fun k hk => absurd (hNone.symm.trans hk) (by simp)) hApart
    (by simp [target]) (by simp [target, Column.ofTy, Column.new, Column.asKey]) hRetried
  exact ⟨ran, db', hRetried, hCount, hCompile, hSingle⟩

/-- The default of a column is a missing list of numbers whose element type holds what is no number.
It is written again when the commit that failed at the index is taken up. -/
theorem retried_unsettled :
    let unsettled := Value.list none (.float .double (some (.nan .double)))
    let target : Table :=
      { name := "t"
        columns := [{ Column.ofTy "a" (.integer .int32) with default := some unsettled }]
        indexes := [{ name := "i", columns := [("a", .ascending)] }] }
    ∃ first again last db', ({ target } : Session).compile (.new .generic) = .ok [first, last] ∧
      again.sql = "ALTER TABLE t ALTER COLUMN a SET DEFAULT NULL" ∧
      Retried target (.new .generic) [first, again, last] db' :=
  ⟨_, _, _, _, rfl, rfl, .failed .new (.scripted .blocking [[], [.failure "disk full"]]) [_] rfl rfl
    (.succeeded .new (.scripted .blocking []) [_, _] rfl rfl)⟩

end Session

end SqlMapper
