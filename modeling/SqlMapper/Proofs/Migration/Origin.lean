import SqlMapper.Proofs.Migration.Change
import SqlMapper.Proofs.Migration.Commit
import SqlMapper.Proofs.Migration.Plan

/-! Where the parts of a half migrated table come from. Each of its columns is one that a step has
brought, or else one that was known; its key columns have the names of the known key or of the
target's, and its indexes are known ones or those whose steps ran. -/
namespace SqlMapper

open Column (Distinct foldedNames named?)

/-- All of a column that neither a comment nor a place in the key changes in a table that is checked:
its name, its property and whether it can be null. -/
def Column.outline (c : Column) : (String × String) × Bool := (c.label, c.nullable)

variable {target k x : Table} {change : TableChange} {done steps : List Step}

/-! ### Single steps -/

namespace TableChange

/-- The column that a change brings, if it brings one. -/
def brought : TableChange → List Column
  | column c => [c]
  | _ => []

/-- A column comes from the change when it brings one of that name, else from before. -/
theorem outline_apply (hCreate : change ≠ create) (name : String) :
    (named? (change.apply target k).columns name).map Column.outline =
      ((named? change.brought name).or (named? k.columns name)).map Column.outline := by
  cases change with
  | create => exact absurd rfl hCreate
  | column c =>
      rw [named?_apply_column, brought, Column.named?_cons]
      cases c.isNamed name <;> rfl
  | comment c =>
      have hNone : (comment c).brought = [] := rfl
      rw [named?_apply_comment, hNone, Column.named?_nil, Option.none_or]
      split
      · rw [Option.map_map]
        rfl
      · rfl
  | key =>
      have hFound := Column.named?_map (f := fun c => { c with
        isKey := target.columns.any fun t => t.isKey && t.isNamed c.name }) (fun _ => rfl)
        k.columns name
      change (named? (k.columns.map _) name).map Column.outline = _
      rw [hFound, Option.map_map]
      rfl
  | index i => rfl

/-- A name of the key was one before, or the change set the key of the target. -/
theorem mem_key_apply (hCreate : change ≠ create) {name : String}
    (h : name ∈ foldedNames (change.apply target k).key) :
    name ∈ foldedNames k.key ∨ change = key ∧ name ∈ foldedNames target.key := by
  cases change with
  | create => exact absurd rfl hCreate
  | column c =>
      have hSame : foldedNames ((column c).apply target k).key = foldedNames k.key :=
        Column.foldedNames_key_putInto rfl
      exact .inl (hSame ▸ h)
  | comment c => exact .inl (Column.foldedNames_key_setComment c k.columns ▸ h)
  | index i => exact .inl h
  | key =>
      obtain ⟨y, hy, rfl⟩ := List.mem_map.mp h
      obtain ⟨hMem, hIsKey⟩ := List.mem_filter.mp hy
      obtain ⟨p, hp, rfl⟩ := List.mem_map.mp hMem
      obtain ⟨t, ht, hBoth⟩ := List.any_eq_true.mp hIsKey
      rw [Bool.and_eq_true] at hBoth
      exact .inr ⟨rfl, List.mem_map.mpr
        ⟨t, List.mem_filter.mpr ⟨ht, hBoth.1⟩, Column.isNamed_iff.mp hBoth.2⟩⟩

/-- An index was known before, or the change brought it. -/
theorem mem_indexes_apply (hCreate : change ≠ create) {i : Index}
    (h : i ∈ (change.apply target k).indexes) : i ∈ k.indexes ∨ change = index i := by
  cases change with
  | create => exact absurd rfl hCreate
  | index j =>
      rcases List.mem_append.mp h with h | h
      · exact .inl (List.mem_filter.mp h).1
      · exact .inr (by rw [List.mem_singleton.mp h])
  | _ => exact .inl h

end TableChange

/-! ### Several steps -/

namespace Plan

/-- Steps that are about parts of the target and create no table. -/
def Concern (target : Table) (steps : List Step) : Prop :=
  ∀ step ∈ steps, step.change.Concerns target ∧ step.change ≠ .create

/-- Steps keep the names of columns distinct. -/
theorem distinct_tableAfter {known : Option Table} (hTarget : Distinct target.columns)
    (hKnown : ∀ k ∈ known, Distinct k.columns) :
    ∀ t ∈ tableAfter target known steps, Distinct t.columns := by
  induction steps generalizing known with
  | nil => exact hKnown
  | cons step steps ih =>
      refine ih fun k hk => ?_
      obtain rfl := Option.some.inj hk
      refine TableChange.distinct_apply hTarget ?_ step.change
      cases known with
      | none => exact List.nodup_nil
      | some known => exact hKnown known rfl

/-- What a table has that was made by steps it had before them, or one of them brought it. -/
theorem before_or_step {P : Table → Prop} {Q : TableChange → Prop} (hSteps : Concern target steps)
    (hStep : ∀ change k, change ≠ .create →
      P (change.apply target k) → P k ∨ Q change)
    (hTable : tableAfter target (some k) steps = some x) (h : P x) :
    P k ∨ ∃ step ∈ steps, Q step.change := by
  induction steps generalizing k with
  | nil =>
      obtain rfl := Option.some.inj hTable
      exact .inl h
  | cons step steps ih =>
      obtain ⟨⟨-, hCreate⟩, hRest⟩ := List.forall_mem_cons.mp hSteps
      rcases ih hRest hTable with hBefore | ⟨later, hMem, hQ⟩
      · exact (hStep _ _ hCreate hBefore).imp_right fun hQ => ⟨step, List.mem_cons_self .., hQ⟩
      · exact .inr ⟨later, List.mem_cons_of_mem _ hMem, hQ⟩

/-- A name of the key was one before, or some step set the key of the target. -/
theorem mem_key_tableAfter (hSteps : Concern target steps)
    (hTable : tableAfter target (some k) steps = some x) {name : String}
    (h : name ∈ foldedNames x.key) :
    name ∈ foldedNames k.key ∨
      ∃ step ∈ steps, step.change = .key ∧ name ∈ foldedNames target.key :=
  before_or_step (P := fun t => name ∈ foldedNames t.key)
    (Q := fun change => change = .key ∧ name ∈ foldedNames target.key) hSteps
    (fun _ _ hCreate => TableChange.mem_key_apply hCreate) hTable h

/-- An index was known before, or some step brought it. -/
theorem mem_indexes_tableAfter (hSteps : Concern target steps)
    (hTable : tableAfter target (some k) steps = some x) {i : Index} (h : i ∈ x.indexes) :
    i ∈ k.indexes ∨ ∃ step ∈ steps, step.change = .index i :=
  before_or_step (P := fun t => i ∈ t.indexes) (Q := fun change => change = .index i) hSteps
    (fun _ _ hCreate => TableChange.mem_indexes_apply hCreate) hTable h

/-- The steps of a migration leave the name and schema of the table. -/
theorem address_of_concern (hSteps : Concern target steps)
    (hTable : tableAfter target (some k) steps = some x) :
    x.name = k.name ∧ x.schema = k.schema := by
  induction steps generalizing k with
  | nil =>
      obtain rfl := Option.some.inj hTable
      exact ⟨rfl, rfl⟩
  | cons step steps ih =>
      obtain ⟨⟨-, hCreate⟩, hRest⟩ := List.forall_mem_cons.mp hSteps
      obtain ⟨hName, hSchema⟩ := ih hRest hTable
      obtain ⟨hSameName, hSameSchema⟩ := TableChange.address_apply hCreate
      exact ⟨hName.trans hSameName, hSchema.trans hSameSchema⟩

def brought (steps : List Step) : List Column := steps.flatMap (·.change.brought)

/-- The columns brought are those of the column steps. -/
theorem mem_brought_iff {c : Column} :
    c ∈ brought steps ↔ ∃ step ∈ steps, step.change = .column c := by
  have hColumn (change : TableChange) : c ∈ change.brought ↔ change = .column c := by
    cases change <;> simp [TableChange.brought, eq_comm]
  simp only [brought, List.mem_flatMap, hColumn]

/-- A step brings only columns of the target. -/
theorem mem_target_of_mem_brought (hSteps : Concern target steps) {c : Column}
    (h : c ∈ brought steps) : c ∈ target.columns := by
  obtain ⟨step, hStep, hChange⟩ := mem_brought_iff.mp h
  have hConcerns := (hSteps step hStep).1
  rwa [hChange] at hConcerns

/-- A column that was brought is the one of its name among all that were. -/
theorem named?_brought (hTarget : Distinct target.columns) (hSteps : Concern target steps)
    {c : Column} (h : c ∈ brought steps) {name : String} (hName : c.isNamed name = true) :
    named? (brought steps) name = some c := by
  cases hFound : named? (brought steps) name with
  | none =>
      have hNot := List.find?_eq_none.mp hFound c h
      exact absurd hName hNot
  | some d =>
      have hSame : d.isNamed c.name = true := Column.isNamed_iff.mpr
        ((Column.isNamed_iff.mp (Column.isNamed_of_named? hFound)).trans
          (Column.isNamed_iff.mp hName).symm)
      rw [hTarget.eq_of_isNamed (mem_target_of_mem_brought hSteps h)
        (mem_target_of_mem_brought hSteps (Column.mem_of_named? hFound)) hSame]

/-- Under each name there is the column that was brought, or else the one that was known. -/
theorem outline_tableAfter (hTarget : Distinct target.columns) (hSteps : Concern target steps)
    (hTable : tableAfter target (some k) steps = some x) (name : String) :
    (named? x.columns name).map Column.outline =
      ((named? (brought steps) name).or (named? k.columns name)).map Column.outline := by
  induction steps generalizing k with
  | nil =>
      obtain rfl := Option.some.inj hTable
      rfl
  | cons step steps ih =>
      obtain ⟨⟨-, hCreate⟩, hRest⟩ := List.forall_mem_cons.mp hSteps
      have hMore : brought (step :: steps) = step.change.brought ++ brought steps := rfl
      have hSwap : (named? (brought steps) name).or (named? step.change.brought name) =
          (named? step.change.brought name).or (named? (brought steps) name) := by
        cases hFirst : named? step.change.brought name with
        | none => rw [Option.or_none, Option.none_or]
        | some c =>
            cases hLater : named? (brought steps) name with
            | none => rfl
            | some d =>
                -- The target has each name once, so a later column of this name is the same one.
                have hd : d ∈ brought (step :: steps) :=
                  hMore ▸ List.mem_append_right _ (Column.mem_of_named? hLater)
                have hSame := named?_brought hTarget hSteps hd (Column.isNamed_of_named? hLater)
                rw [hMore, Column.named?_append, hFirst, Option.some_or] at hSame
                rw [Option.some_or, Option.some_or, hSame]
      rw [ih hRest hTable, Option.map_or, TableChange.outline_apply hCreate, ← Option.map_or,
        ← Option.or_assoc, hSwap, ← Column.named?_append, ← hMore]
      rfl

/-! ### Steps of a plan -/

variable {d : Dialect} {rest : List Step}

/-- Steps on a known table are about parts of the target and create none. -/
theorem concern_of_steps (h : Plan.steps d (some k) target = .ok steps) : Concern target steps := by
  obtain ⟨-, columns, key, indexes, hColumns, hKey, hIndexes, rfl⟩ := steps_some_eq_ok.mp h
  intro step hStep
  rcases List.mem_append.mp hStep with hStep | hStep
  · rcases List.mem_append.mp hStep with hStep | hStep
    · obtain ⟨c, hc, hChange | hChange⟩ := change_of_mem_columnSteps hColumns hStep <;>
        rw [hChange] <;> exact ⟨hc, by simp⟩
    · rcases keySteps_eq_ok hKey with ⟨-, rfl⟩ | ⟨-, -, -, rfl⟩
      · simp at hStep
      · rw [List.mem_singleton.mp hStep]
        exact ⟨trivial, by simp⟩
  · obtain ⟨i, hi, hChange⟩ := change_of_mem_indexing hIndexes hStep
    rw [hChange]
    exact ⟨(List.mem_filter.mp hi).1, by simp⟩

/-- A new table is created, and then come its comments and its indexes. -/
theorem first_creates (h : Plan.steps d none target = .ok steps) :
    ∃ first later, steps = first :: later ∧ first.change = .create ∧
      ∀ step ∈ later, (∃ c ∈ target.columns, step.change = .comment c) ∨
        ∃ i ∈ target.indexes, step.change = .index i := by
  obtain ⟨-, edit, indexes, -, hIndexes, rfl⟩ := steps_none_eq_ok.mp h
  refine ⟨_, _, rfl, rfl, fun step hStep => ?_⟩
  rcases List.mem_append.mp hStep with hStep | hStep
  · obtain ⟨c, hc, rfl⟩ := List.mem_map.mp hStep
    exact .inl ⟨c, (List.mem_filter.mp hc).1, rfl⟩
  · exact .inr (change_of_mem_indexing hIndexes hStep)

/-- What a plan for a new table comes to behind some of its steps are comments and indexes of the
created table. -/
theorem created_of_tableAfter (h : Plan.steps d none target = .ok (done ++ rest))
    (hTable : tableAfter target none done = some x) :
    ∃ later,
      tableAfter target (some (TableChange.create.apply target { name := "" })) later = some x ∧
        Concern target later ∧ brought later = [] ∧ ∀ step ∈ later, step.change ≠ .key := by
  obtain ⟨first, others, hEq, hCreate, hOthers⟩ := first_creates h
  cases done with
  | nil => cases hTable
  | cons step done =>
      obtain ⟨rfl, rfl⟩ := List.cons.inj hEq
      have hLater := fun s hs => hOthers s (List.mem_append_left rest hs)
      refine ⟨done, ?_, ?_, List.flatMap_eq_nil_iff.mpr ?_, ?_⟩
      · rw [← hTable, ← hCreate]
        rfl
      all_goals
        intro s hs
        rcases hLater s hs with ⟨c, hc, hChange⟩ | ⟨i, hi, hChange⟩ <;> rw [hChange]
      · exact ⟨hc, by simp⟩
      · exact ⟨hi, by simp⟩
      · rfl
      · rfl
      · simp
      · simp

/-- Steps leave a known table where it is, and create a new one where the target is. -/
theorem address_tableAfter {known : Option Table}
    (h : Plan.steps d known target = .ok (done ++ rest))
    (hTable : tableAfter target known done = some x) :
    x.name = (known.getD target).name ∧ x.schema = (known.getD target).schema := by
  cases known with
  | some k =>
      exact address_of_concern
        (fun step hStep => concern_of_steps h step (List.mem_append_left _ hStep)) hTable
  | none =>
      obtain ⟨later, hLater, hSteps, -⟩ := created_of_tableAfter h hTable
      have hAddress := address_of_concern hSteps hLater
      exact hAddress

/-- Behind the step of the key, or of an index, each column of the target has been brought, or it was
known and differed in nothing. -/
theorem settled_of_late (h : Plan.steps d (some k) target = .ok (done ++ rest)) {step : Step}
    (hMem : step ∈ done) (hLate : step.change = .key ∨ ∃ i, step.change = .index i) {c : Column}
    (hc : c ∈ target.columns) :
    c ∈ brought done ∨ ∃ p, k.find? c.name = some p ∧ c.differs p = false := by
  obtain ⟨-, columns, key, indexes, hColumns, -, -, hEq⟩ := steps_some_eq_ok.mp h
  -- The steps that ran are either some of the columns' only, or they have all of these in front.
  have hAll : columns ⊆ done := by
    rw [List.append_assoc] at hEq
    rcases List.append_eq_append_iff.mp hEq with ⟨others, hDone, -⟩ | ⟨others, hDone, -⟩
    · have hColumn : step ∈ columns := hDone ▸ List.mem_append_left _ hMem
      obtain ⟨x, -, hChange | hChange⟩ := change_of_mem_columnSteps hColumns hColumn <;>
        simp [hChange] at hLate
    · exact hDone ▸ List.subset_append_left _ _
  obtain ⟨own, hOwn, hSubset⟩ := ownSteps_of_mem hc hColumns
  obtain ⟨shape, hShape, rfl⟩ := Result.map_eq_ok_iff.mp hOwn
  have hBrought (edits : List Edit) (hStep : ⟨.column c, edits⟩ ∈ shape) : c ∈ brought done :=
    mem_brought_iff.mpr ⟨_, hAll (hSubset (List.mem_append_left _ hStep)), rfl⟩
  rcases columnStep_eq_ok hShape with ⟨_, -, -, rfl⟩ | ⟨_, edits, -, -, -, rfl⟩ |
    ⟨p, hFound, hDiffers, -, -⟩
  · exact .inl (hBrought _ (List.mem_cons_self ..))
  · exact .inl (hBrought _ (List.mem_cons_self ..))
  · exact .inr ⟨p, hFound, hDiffers⟩

end Plan

end SqlMapper
