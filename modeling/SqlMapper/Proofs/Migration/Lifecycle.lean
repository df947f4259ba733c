import SqlMapper.Proofs.Migration.Completeness

/-! The life of a session. Columns are added to its target and commits are tried, in any order. Once
a commit has succeeded the session counts as committed for good. What it registered stays in place as
long as no column is added, whatever fails later. A column that is added behind it waits for the next
commit, and the state does not tell. -/
namespace SqlMapper

namespace Table

variable {t : Table} {c : Column}

/-- A column that stands in its place already changes nothing when it is put there. -/
theorem put_eq_self (h : Column.named? t.columns c.name = some c) : t.put c = t := by
  have hColumns (cs : List Column) (h : Column.named? cs c.name = some c) : putInto c cs = cs := by
    induction cs with
    | nil => cases h
    | cons d ds ih =>
        rw [Column.named?_cons] at h
        rw [putInto]
        split at h
        next hNamed => rw [if_pos hNamed, Option.some.inj h]
        next hOther => rw [if_neg hOther, ih h]
  rw [put, hColumns t.columns h]

/-- A column has its own comment. -/
theorem setComment_eq_self {cs : List Column} (h : Column.named? cs c.name = some c) :
    TableChange.setComment c cs = cs := by
  induction cs with
  | nil => rfl
  | cons d ds ih =>
      rw [Column.named?_cons] at h
      rw [TableChange.setComment]
      split at h
      next hNamed => rw [if_pos hNamed, Option.some.inj h]
      next hOther => rw [if_neg hOther, ih h]

end Table

namespace Plan

variable {d : Dialect} {target : Table} {known : Option Table} {first steps : List Step}

/-- What is in place is at most written again: no step changes the merged table. -/
theorem apply_merged (hFirst : Plan.steps d known target = .ok first)
    (h : Plan.steps d (some (target.merged known)) target = .ok steps) {step : Step}
    (hStep : step ∈ steps) :
    step.change.apply target (target.merged known) = target.merged known := by
  obtain ⟨hValid, columns, key, indexes, hColumns, hKey, hIndexes, rfl⟩ := steps_some_eq_ok.mp h
  rw [keySteps_merged hFirst] at hKey
  rw [newIndexes_merged] at hIndexes
  obtain rfl := Except.ok.inj hKey
  obtain rfl := Except.ok.inj hIndexes
  -- Only columns are left, and each of them is found as it is in the target.
  have hMem : step ∈ columns := by simpa using hStep
  obtain ⟨c, hc, hChange⟩ := change_of_mem_columnSteps hColumns hMem
  have hNamed := Table.named?_merged known (Table.distinct_of_validate hValid) hc
  rcases hChange with hChange | hChange
  · have hFound : (target.merged known).columns.find? (·.isNamed c.name) = some c := hNamed
    rw [hChange, TableChange.apply, hFound]
    exact Table.put_eq_self hNamed
  · rw [hChange, TableChange.apply, Table.setComment_eq_self hNamed]

theorem tableAfter_merged (hFirst : Plan.steps d known target = .ok first) {done : List Step}
    (h : Plan.steps d (some (target.merged known)) target = .ok steps) (hDone : done ⊆ steps) :
    tableAfter target (some (target.merged known)) done = some (target.merged known) := by
  induction done with
  | nil => rfl
  | cons step done ih =>
      obtain ⟨hStep, hRest⟩ := List.cons_subset.mp hDone
      have hSame := apply_merged hFirst h hStep
      have hNext : tableAfter target (some (target.merged known)) (step :: done) =
          tableAfter target (some (step.change.apply target (target.merged known))) done := rfl
      rw [hNext, hSame, ih hRest]

end Plan

namespace Session

/-- What calls make of a session that was opened on a database: whether a commit has succeeded, and
the columns that were added since the last one that did. Every commit has a wire of its own. -/
inductive Went (target : Table) (db : Database) :
    Bool → List Column → Session → Database → Prop where
  | opened : Went target db false [] { target } db
  | added {succeeded : Bool} {pending : List Column} {s : Session} {db' : Database}
      (before : Went target db succeeded pending s db') (c : Column) :
      Went target db succeeded (pending ++ [c]) (s.addColumn c) db'
  | succeeded {succeeded : Bool} {pending : List Column} {s s' : Session} {mid db' : Database}
      {w u : Wire} {n : Nat} (before : Went target db succeeded pending s mid)
      (committed : s.commit mid w = (.ok n, s', db', u)) : Went target db true [] s' db'
  | failed {succeeded : Bool} {pending : List Column} {s s' : Session} {mid db' : Database}
      {w u : Wire} {e : Failure} (before : Went target db succeeded pending s mid)
      (committed : s.commit mid w = (.error e, s', db', u)) :
      Went target db succeeded pending s' db'

/-- A commit that fails leaves its session as it was. -/
theorem eq_of_commit_eq_error {s s' : Session} {db db' : Database} {w u : Wire} {e : Failure}
    (h : s.commit db w = (.error e, s', db', u)) : s' = s := by
  rcases commit_cases s db w with ⟨_, -, hCommit⟩ | ⟨_, _, -, -, hCommit⟩ |
    ⟨_, _, _, _, _, _, _, _, -, -, -, hCommit⟩
  · rw [h] at hCommit
    exact congrArg (·.2.1) hCommit
  · simp [h] at hCommit
  · rw [h] at hCommit
    exact congrArg (·.2.1) hCommit

/-- The database knows what a commit of the session has once registered. -/
def Settles (s : Session) (db : Database) : Prop :=
  ∃ known first, Plan.steps db.dialect known s.target = .ok first ∧
    s.known? db = some (s.target.merged known)

variable {target : Table} {db db' : Database} {succeeded : Bool} {pending : List Column}
  {s s' : Session} {w u : Wire}

/-- A session whose commit succeeded has settled its target. -/
theorem settles_of_commit_eq_ok {n : Nat} (h : s.commit db w = (.ok n, s', db', u)) :
    s'.Settles db' := by
  obtain ⟨steps, hPlan, -, -, rfl, rfl⟩ := commit_eq_ok h
  exact ⟨s.known? db, steps, hPlan, known?_put_merged { s with state := .committed } db _⟩

/-- A commit that fails behind one that succeeded changes nothing. -/
theorem Settles.of_commit_eq_error (hBefore : s.Settles db) {e : Failure}
    (h : s.commit db w = (.error e, s', db', u)) : s'.Settles db' := by
  obtain rfl := eq_of_commit_eq_error h
  rcases commit_eq_error h with ⟨-, rfl, -⟩ | ⟨done, step, rest, -, -, -, hPlan, -, -, rfl⟩
  · exact hBefore
  · obtain ⟨known, first, hFirst, hKnown⟩ := hBefore
    have hAgain := hPlan
    rw [plan, hKnown] at hAgain
    have hAfter := Plan.tableAfter_merged hFirst hAgain (List.subset_append_left done _)
    have hKept : s'.kept db done = db ∨ s'.kept db done = db.put (s'.target.merged known) := by
      rcases s'.kept_cases db done with hSame | ⟨t, hTable, hPut⟩
      · exact .inl hSame
      · rw [hKnown, hAfter] at hTable
        exact .inr (by rw [hPut, Option.some.inj hTable])
    rcases hKept with hSame | hPut
    · rw [hSame]
      exact ⟨known, first, hFirst, hKnown⟩
    · rw [hPut]
      exact ⟨known, first, hFirst, known?_put_merged s' db known⟩

namespace Went

/-- The state tells whether a commit has succeeded, and how many columns were added before. -/
theorem state_eq (h : Went target db succeeded pending s db') :
    s.state = bif succeeded then .committed
      else if pending.isEmpty then .new else .columnsAdded pending.length := by
  induction h with
  | opened => rfl
  | @added succeeded pending s db' before c ih =>
      rw [addColumn, ih]
      cases succeeded with
      | true => rfl
      | false => cases pending <;> simp [SessionState.afterColumn]
  | succeeded before committed =>
      obtain ⟨-, -, -, -, rfl, -⟩ := commit_eq_ok committed
      rfl
  | failed before committed ih => rw [eq_of_commit_eq_error committed, ih]

/-- The table of the last commit that succeeded is in place while no column is added. -/
theorem settles (h : Went target db succeeded pending s db') (hSucceeded : succeeded = true)
    (hNone : pending = []) : s.Settles db' := by
  induction h with
  | opened => cases hSucceeded
  | added => simp at hNone
  | succeeded _ committed => exact settles_of_commit_eq_ok committed
  | failed _ committed ih => exact (ih hSucceeded hNone).of_commit_eq_error committed

end Went

/-- A column that the database does not know leaves something to do. -/
theorem compile_addColumn_ne_nil {c : Column}
    (hNew : ∀ k, s.known? db = some k → k.find? c.name = none) :
    (s.addColumn c).compile db ≠ .ok [] := by
  intro hCompile
  obtain ⟨steps, hPlan, hIdle⟩ := compile_eq_nil_iff.mp hCompile
  have hSame : (s.addColumn c).known? db = s.known? db := rfl
  obtain ⟨k, hKnown, -⟩ := Plan.inForce_of_steps hPlan hIdle
  rw [plan, hKnown] at hPlan
  obtain ⟨-, columns, key, indexes, hColumns, -, -, rfl⟩ := Plan.steps_some_eq_ok.mp hPlan
  have hNamed : Column.named? (s.addColumn c).target.columns c.name = some c := by
    rw [addColumn, Table.put, Table.named?_putInto, if_pos (Column.isNamed_self c)]
  obtain ⟨own, hOwn, hSubset⟩ := Plan.ownSteps_of_mem (Column.mem_of_named? hNamed) hColumns
  rw [hNew k (hSame ▸ hKnown)] at hOwn
  have hOwnIdle : ∀ step ∈ own, step.edits = [] := fun step hStep =>
    hIdle step (List.mem_append_left _ (List.mem_append_left _ (hSubset hStep)))
  obtain ⟨_, hFound, -⟩ := Plan.asKnown_of_ownSteps hOwn hOwnIdle
  cases hFound

/-- The life of a session. Its state is committed from the first commit that succeeds on. Where no
column was added since the last one, its target is in force whatever failed meanwhile: it compiles to
nothing, unless a default is a missing list whose element type holds what is no number. A column that
the database does not know leaves the state as it is, with something to do. -/
theorem compile_nil_iff_of_went (h : Went target db succeeded pending s db') :
    (s.state = bif succeeded then .committed
      else if pending.isEmpty then .new else .columnsAdded pending.length) ∧
    (s.state = .committed → pending = [] →
      (s.compile db' = .ok [] ↔
        ∀ c ∈ s.target.columns, ∀ v, c.default = some v → v.Settled)) ∧
    ∀ c, s.state = .committed → (∀ k, s.known? db' = some k → k.find? c.name = none) →
      (s.addColumn c).state = .committed ∧ (s.addColumn c).compile db' ≠ .ok [] := by
  refine ⟨h.state_eq, fun hState hNone => ?_, fun c hState hNew => ⟨?_, compile_addColumn_ne_nil hNew⟩⟩
  · have hSucceeded : succeeded = true := by
      have hEq := h.state_eq
      cases succeeded with
      | true => rfl
      | false => simp [hState, hNone] at hEq
    obtain ⟨known, first, hFirst, hKnown⟩ := h.settles hSucceeded hNone
    exact compile_eq_nil_iff_of_merged hFirst hKnown
  · rw [addColumn, hState]
    rfl

/-- A column is added, the index fails once, and another commit succeeds. -/
theorem compile_nil_iff_of_went_retried :
    let key := (Column.ofTy "id" (.integer .int64)).asKey
    let word : Column := { Column.ofTy "a" .text with default := some (.text (some "x")) }
    let note := Column.ofTy "note" .text
    let target : Table :=
      { name := "t", columns := [key], indexes := [{ name := "i", columns := [("a", .ascending)] }] }
    ∃ s db', Went target (.new .generic) true [] s db' ∧ s.target.columns = [key, word] ∧
      s.state = .committed ∧ s.compile db' = .ok [] ∧ (s.addColumn note).state = .committed ∧
      (s.addColumn note).compile db' ≠ .ok [] := by
  intro key word note target
  have hRun : ∃ s db', Went target (.new .generic) true [] s db' ∧
      s.target.columns = [key, word] ∧ s.state = .committed ∧
      (∃ k, s.known? db' = some k ∧ k.find? note.name = none) := by
    have hAdded : Went target (.new .generic) false [word] _ _ := Went.opened.added word
    dsimp +zetaDelta only at hAdded ⊢
    have hFailed := hAdded.failed (w := .scripted .blocking [[], [.failure "disk full"]]) rfl
    exact ⟨_, _, hFailed.succeeded (w := .scripted .blocking []) rfl, rfl, rfl, _, rfl, rfl⟩
  obtain ⟨s, db', hWent, hColumns, hState, k, hKnown, hNew⟩ := hRun
  obtain ⟨-, hNothing, hPending⟩ := compile_nil_iff_of_went hWent
  have hSettled : ∀ c ∈ s.target.columns, ∀ v, c.default = some v → v.Settled := by
    rw [hColumns]
    simp [key, word, Column.ofTy, Column.new, Column.asKey, Value.Settled]
  have hLeft := hPending note hState fun other hOther => by
    obtain rfl := Option.some.inj (hKnown.symm.trans hOther)
    exact hNew
  exact ⟨s, db', hWent, hColumns, hState, (hNothing hState rfl).mpr hSettled, hLeft⟩

/-- A column is added behind the commit. The state stays committed, and the column is missing. -/
theorem compile_committed_pending :
    let target : Table := { name := "t", columns := [.ofTy "a" (.integer .int32)] }
    ∃ s db', Went target (.new .generic) true [.ofTy "b" .text] s db' ∧ s.state = .committed ∧
      s.compile db' = .ok [⟨"ALTER TABLE t ADD COLUMN b TEXT", []⟩] :=
  ⟨_, _, (Went.opened.succeeded (w := .scripted .blocking []) rfl).added _, rfl, rfl⟩

end Session

end SqlMapper
