import SqlMapper.Proofs.Migration.Commit
import SqlMapper.Proofs.Migration.Merge
import SqlMapper.Proofs.Migration.Plan
import SqlMapper.Proofs.Value.Equality

/-! A migration that is done has nothing left to do. The plan from the table that a commit registers
to the same target is empty, exactly where every default of the target equals itself. -/
namespace SqlMapper

variable {d : Dialect} {target : Table} {known : Option Table} {c : Column} {steps : List Step}

namespace Table

/-- The merged table has each column of the target under its name. -/
theorem named?_merged (known : Option Table) (hDistinct : Column.Distinct target.columns)
    (hMem : c ∈ target.columns) :
    Column.named? (target.merged known).columns c.name = some c := by
  obtain ⟨columns, indexes, hEq, -⟩ := exists_merged target known
  rw [hEq, Column.named?_append, Column.named?_self hDistinct hMem, Option.some_or]

/-- After the migration the known table answers with the columns of the target. -/
theorem find?_merged (hDistinct : Column.Distinct target.columns) (hMem : c ∈ target.columns) :
    (target.merged known).find? c.name = some c :=
  find?_eq_named? (named?_merged known hDistinct hMem)

/-- A table that can be brought to the target has no key column that the target lacks. -/
theorem keyNames_merged (h : Plan.steps d known target = .ok steps) :
    (target.merged known).keyNames = target.keyNames := by
  obtain ⟨columns, indexes, hEq, hMem, -⟩ := exists_merged target known
  have hNone : columns.filter (·.isKey) = [] := by
    refine List.filter_eq_nil_iff.mpr fun x hx hKey => ?_
    obtain ⟨hKnown, hMissing⟩ := hMem x hx
    cases known with
    | none => simp at hKnown
    | some k =>
        have hKeyMem : x ∈ k.key := List.mem_filter.mpr ⟨hKnown, hKey⟩
        obtain ⟨hValid, -, key, -, -, hKeySteps, -⟩ := Plan.steps_some_eq_ok.mp h
        rcases Plan.keySteps_eq_ok hKeySteps with ⟨hSame, -⟩ | ⟨-, hEmpty, -⟩
        · -- The names of both keys are the same, so the target has a column of this name.
          have hPerm := perm_key_of_sameNames hSame (distinct_of_validate hValid)
          obtain ⟨c, hc, hNamed⟩ :=
            List.mem_map.mp (hPerm.symm.subset (Column.folded_mem hKeyMem))
          have hNot := find?_eq_none_iff.mp hMissing c (List.mem_filter.mp hc).1
          simp [Column.answersTo, Column.isNamed_iff.mpr hNamed] at hNot
        · simp [hEmpty] at hKeyMem
  rw [hEq, keyNames, key, List.filter_append, hNone, List.append_nil]
  rfl

end Table

namespace Plan

/-- A column needs no step to become what it is. -/
theorem ownSteps_self (h : c.sameDefault c = true) : ownSteps d target c (some c) = .ok [] := by
  simp [ownSteps, columnStep, c.differs_self, h, commentSteps, Except.map]

/-- A default that differs from itself is written again each time. -/
theorem sameDefault_of_columnStep (h : columnStep d target c (some c) = .ok steps)
    (hIdle : ∀ step ∈ steps, step.edits = []) : c.sameDefault c = true := by
  rcases columnStep_eq_ok h with ⟨_, hNone, -⟩ | ⟨k, edits, hSome, -, hEdits, rfl⟩ |
    ⟨k, hSome, -, hSame, -⟩
  · simp at hNone
  · obtain rfl := Option.some.inj hSome
    have hEmpty : edits = [] := hIdle ⟨.column c, edits⟩ (List.mem_cons_self ..)
    rcases Edit.altering_eq_ok hEdits with ⟨-, changes, hChanges, hEq⟩ | ⟨-, clause, -, hEq⟩
    · obtain ⟨_, _, default, -, -, hDefault, rfl⟩ := Edit.changes_eq_ok hChanges
      rcases Edit.defaultChange_eq_ok hDefault with ⟨hSame, -⟩ | ⟨-, -, rfl⟩ | ⟨-, _, _, -, -, rfl⟩
      · exact hSame
      · simp [hEmpty] at hEq
      · simp [hEmpty] at hEq
    · simp [hEmpty] at hEq
  · obtain rfl := Option.some.inj hSome
    exact hSame

/-- The merged table has the key of the target. -/
theorem keySteps_merged (h : Plan.steps d known target = .ok steps) :
    keySteps d (target.merged known) target = .ok [] := by
  rw [keySteps, Table.keyNames_merged h, if_pos (Table.sameNames_of_perm (List.Perm.refl _))]

/-- The merged table has every index of the target. -/
theorem newIndexes_merged (target : Table) (known : Option Table) :
    newIndexes (target.merged known) target = [] := by
  obtain ⟨columns, indexes, hEq, -⟩ := Table.exists_merged target known
  refine List.filter_eq_nil_iff.mpr fun i hi => ?_
  have hThere : (target.merged known).indexes.any (·.name == i.name) = true := by
    rw [hEq]
    exact List.any_eq_true.mpr ⟨i, List.mem_append_left _ hi, by simp⟩
  simp [hThere]

/-- There is nothing to do from the merged table to the target, if defaults equal themselves. -/
theorem steps_merged (h : Plan.steps d known target = .ok steps)
    (hSelf : ∀ c ∈ target.columns, c.sameDefault c = true) :
    Plan.steps d (some (target.merged known)) target = .ok [] := by
  have hValid := validate_of_steps h
  have hColumns : ∀ cs ⊆ target.columns,
      columnSteps d (target.merged known) target cs = .ok [] := by
    intro cs hSubset
    induction cs with
    | nil => rfl
    | cons c cs ih =>
        obtain ⟨hMem, hRest⟩ := List.cons_subset.mp hSubset
        have hFound : (target.merged known).find? c.name = some c :=
          Table.find?_merged (Table.distinct_of_validate hValid) hMem
        exact columnSteps_cons_eq_ok.mpr
          ⟨[], [], by rw [hFound, ownSteps_self (hSelf c hMem)], ih hRest, rfl⟩
  exact steps_some_eq_ok.mpr ⟨hValid, [], [], [], hColumns _ (List.Subset.refl _),
    keySteps_merged h, by rw [newIndexes_merged]; rfl, rfl⟩

/-- There is something to do wherever a default differs from itself. -/
theorem sameDefault_of_steps_merged {again : List Step}
    (h : Plan.steps d (some (target.merged known)) target = .ok again)
    (hIdle : ∀ step ∈ again, step.edits = []) (hMem : c ∈ target.columns) :
    c.sameDefault c = true := by
  obtain ⟨hValid, columns, key, indexes, hColumns, -, -, rfl⟩ := steps_some_eq_ok.mp h
  obtain ⟨own, hOwn, hSubset⟩ := ownSteps_of_mem hMem hColumns
  rw [Table.find?_merged (Table.distinct_of_validate hValid) hMem] at hOwn
  obtain ⟨step, hStep, rfl⟩ := Result.map_eq_ok_iff.mp hOwn
  refine sameDefault_of_columnStep hStep fun x hx => hIdle x ?_
  exact List.mem_append_left _ (List.mem_append_left _ (hSubset (List.mem_append_left _ hx)))

/-- A default that can be planned differs from itself in one case only: it is a missing list whose
element type does so. -/
theorem sameDefault_self_iff (h : DefaultPlanned d c) :
    c.sameDefault c = true ↔ ∀ v, c.default = some v → v.Settled := by
  constructor
  · rintro hSelf v hSome element rfl
    rw [Column.sameDefault, hSome] at hSelf
    exact hSelf
  · intro hSettled
    rcases h with hLiteral | ⟨k, hSame⟩
    · rw [Column.sameDefault]
      cases hDefault : c.default with
      | none => rfl
      | some v =>
          obtain ⟨literal, hText⟩ := hLiteral v hDefault
          exact Value.same_self_of_literal hText (hSettled v hDefault)
    · exact Column.sameDefault_self_of_same hSame

end Plan

namespace Session

/-- A session compiles to nothing when no step of its plan has a statement. -/
theorem compile_eq_nil_iff {s : Session} {db : Database} :
    s.compile db = .ok [] ↔ ∃ steps, s.plan db = .ok steps ∧ ∀ step ∈ steps, step.edits = [] := by
  rw [compile, Result.bind_eq_ok_iff]
  refine exists_congr fun steps => and_congr_right fun _ => ?_
  simp [pure, Except.pure, stepRequests]

/-- A session that knows what it has once registered compiles to nothing, unless a default is a
missing list whose element type holds what is no number. -/
theorem compile_eq_nil_iff_of_merged {s : Session} {db : Database} {known : Option Table}
    {first : List Step} (hFirst : Plan.steps db.dialect known s.target = .ok first)
    (hKnown : s.known? db = some (s.target.merged known)) :
    s.compile db = .ok [] ↔ ∀ c ∈ s.target.columns, ∀ v, c.default = some v → v.Settled := by
  have hSelf {c : Column} (hMem : c ∈ s.target.columns) :=
    Plan.sameDefault_self_iff (Plan.defaultPlanned_of_steps hFirst hMem)
  rw [compile_eq_nil_iff, plan, hKnown]
  constructor
  · rintro ⟨again, hSteps, hIdle⟩ c hMem
    exact (hSelf hMem).mp (Plan.sameDefault_of_steps_merged hSteps hIdle hMem)
  · intro hSettled
    exact ⟨[], Plan.steps_merged hFirst fun c hMem => (hSelf hMem).mpr (hSettled c hMem), by simp⟩

/-- After a commit that succeeded, its session and every other of the same target compile to nothing,
unless a default is a missing list whose element type holds what is no number. -/
theorem compile_committed_iff {s s' : Session} {db db' : Database} {n : Nat} {w u : Wire}
    (h : s.commit db w = (.ok n, s', db', u)) :
    (s'.compile db' = .ok [] ∧
        ∀ state, ({ target := s.target, state } : Session).compile db' = .ok []) ↔
      ∀ c ∈ s.target.columns, ∀ v, c.default = some v → v.Settled := by
  obtain ⟨steps, hPlan, -, -, rfl, rfl⟩ := commit_eq_ok h
  have hNothing (state : SessionState) : ({ target := s.target, state } : Session).compile
      (db.put (s.target.merged (s.known? db))) = .ok [] ↔
        ∀ c ∈ s.target.columns, ∀ v, c.default = some v → v.Settled :=
    compile_eq_nil_iff_of_merged hPlan (known?_put_merged { target := s.target, state } db _)
  constructor
  · rintro ⟨-, hEvery⟩
    exact (hNothing .new).mp (hEvery .new)
  · intro hSettled
    exact ⟨(hNothing .committed).mpr hSettled, fun state => (hNothing state).mpr hSettled⟩

/-- A known table gets a column and an index, and keeps the column that the target lacks. -/
theorem compile_committed_iff_extended :
    let known : Table :=
      { name := "T", columns := [(Column.ofTy "id" (.integer .int64)).asKey, .ofTy "old" .text] }
    let target : Table :=
      { name := "t"
        columns := [(Column.ofTy "ID" (.integer .int64)).asKey]
        indexes := [{ name := "i", columns := [("a", .ascending)] }] }
    let added : Column :=
      { Column.ofTy "a" (.float .double) with
        default := some (.list none (.float .double none)), comment := "new" }
    let s := Session.addColumn { target } added
    let db := (Database.new .generic).put known
    ∃ s' db' u, s.commit db (.scripted .blocking []) = (.ok 3, s', db', u) ∧
      ((s'.compile db' = .ok [] ∧
          ∀ state, ({ target := s.target, state } : Session).compile db' = .ok []) ↔
        ∀ c ∈ s.target.columns, ∀ v, c.default = some v → v.Settled) := by
  intro known target added s db
  have h : ∃ s' db' u, s.commit db (.scripted .blocking []) = (.ok 3, s', db', u) := by
    dsimp +zetaDelta only
    exact ⟨_, _, _, rfl⟩
  obtain ⟨s', db', u, hCommit⟩ := h
  exact ⟨s', db', u, hCommit, compile_committed_iff hCommit⟩

/-- The default of a column is a missing list of numbers whose element type holds what is no number.
It is written again after each commit. -/
theorem compile_committed_unsettled :
    let unsettled := Value.list none (.float .double (some (.nan .double)))
    let column := { Column.ofTy "a" (.integer .int32) with default := some unsettled }
    let s : Session := { target := { name := "t", columns := [column] } }
    ∃ n s' db' u, s.commit (.new .generic) (.scripted .blocking []) = (.ok n, s', db', u) ∧
      s'.compile db' = .ok [⟨"ALTER TABLE t ALTER COLUMN a SET DEFAULT NULL", []⟩] :=
  ⟨_, _, _, _, rfl, rfl⟩

end Session

end SqlMapper
