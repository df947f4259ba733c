import SqlMapper.Proofs.Migration.Origin
import SqlMapper.Proofs.Migration.Soundness
import SqlMapper.Proofs.Schema.Validity

/-! What migrations leave of the validity of a table, be they finished or stopped behind some step.
Names stay distinct and key columns not nullable whatever the two tables are. Indexes stay on columns
of the table as long as the known columns and those of the target answer to the same of their
names. -/
namespace SqlMapper

open Column (Distinct Sound foldedNames named?)

/-- Columns are found by name in any case of its letters. -/
theorem Column.named?_congr {name other : String} (h : Text.lowerCase name = Text.lowerCase other)
    (cs : List Column) : named? cs name = named? cs other := by
  have hSame (c : Column) : c.isNamed name = c.isNamed other := by
    rw [Bool.eq_iff_iff, isNamed_iff, isNamed_iff, h]
  simp only [named?, hSame]

/-- A column that differs in nothing can be null where the other can. -/
theorem Column.nullable_of_differs {c p : Column} (h : c.differs p = false) :
    c.nullable = p.nullable := by
  simp only [differs, Bool.or_eq_false_iff] at h
  simpa using h.2

/-- Of both tables, every column that answers to the name of one under an index answers to the name
in the index too. -/
def Table.KeepsIndexes (known target : Table) : Prop :=
  ∀ n ∈ known.indexNames ++ target.indexNames,
    ∀ c ∈ known.columns ++ target.columns, c.answersTo n = true →
      ∀ e ∈ known.columns ++ target.columns, e.answersTo c.name = true → e.answersTo n = true

variable {d : Dialect} {target k x : Table} {done rest steps : List Step}

/-! ### Merged tables -/

namespace Table

/-- Sound columns stay sound when the target is merged into the known table. -/
theorem sound_merged {known : Option Table} (hTarget : Sound target.columns)
    (hKnown : ∀ k ∈ known, Sound k.columns) : Sound (target.merged known).columns := by
  obtain ⟨extra, _, hEq, hExtra, hDistinct⟩ := exists_merged target known
  rw [hEq]
  refine ⟨hDistinct hTarget.distinct, fun c hc hKey => ?_⟩
  rcases List.mem_append.mp hc with hc | hc
  · exact hTarget.keys c hc hKey
  · cases known with
    | none => simp at hExtra; simp [hExtra] at hc
    | some k => exact (hKnown k rfl).keys c (hExtra c hc).1 hKey

/-- The indexes of a merged table come from one of the two. -/
theorem mem_withUnknownIndexes {is js : List Index} {i : Index} (h : i ∈ withUnknownIndexes is js) :
    i ∈ is ∨ i ∈ js := by
  induction js generalizing is with
  | nil => exact .inl h
  | cons j js ih =>
      rw [withUnknownIndexes] at h
      split at h
      · exact (ih h).imp_right (List.mem_cons_of_mem _)
      · rcases ih h with hi | hi
        · rcases List.mem_append.mp hi with hi | hi
          · exact .inl hi
          · exact .inr (List.mem_singleton.mp hi ▸ List.mem_cons_self ..)
        · exact .inr (List.mem_cons_of_mem _ hi)

/-- Merging a valid target into a valid table that keeps its indexes is valid. -/
theorem validate_merged {known : Option Table} (hTarget : target.validate = .ok ())
    (hKnown : ∀ k ∈ known, k.validate = .ok () ∧ k.KeepsIndexes target) :
    (target.merged known).validate = .ok () := by
  obtain ⟨hSound, hNames⟩ := validate_eq_ok_iff.mp hTarget
  refine validate_eq_ok_iff.mpr
    ⟨sound_merged hSound fun k hk => (validate_eq_ok_iff.mp (hKnown k hk).1).1, fun n hn => ?_⟩
  obtain ⟨extra, _, hEq, hExtra, -⟩ := exists_merged target known
  have hSubset : target.columns ⊆ (target.merged known).columns := by
    rw [hEq]
    exact List.subset_append_left _ _
  obtain ⟨i, hi, hMem⟩ := mem_indexNames_iff.mp hn
  rw [merged_eq] at hi
  rcases mem_withUnknownIndexes hi with hi | hi
  · obtain ⟨c, hc, hAnswers⟩ := hNames n (mem_indexNames_iff.mpr ⟨i, hi, hMem⟩)
    exact ⟨c, hSubset hc, hAnswers⟩
  · cases known with
    | none => exact absurd hi List.not_mem_nil
    | some k =>
        obtain ⟨hValid, hKeeps⟩ := hKnown k rfl
        have hIndexed : n ∈ k.indexNames := mem_indexNames_iff.mpr ⟨i, hi, hMem⟩
        obtain ⟨c, hc, hAnswers⟩ := (validate_eq_ok_iff.mp hValid).2 n hIndexed
        -- A known column that is left out has given way to one that answers to its name.
        obtain ⟨e, he, hAnswersName⟩ := exists_answers_of_find?_ne_none
          (find?_withUnknown_ne_none { target with mappings := [] } hc)
        have heMem : e ∈ (target.merged (some k)).columns := by
          rw [merged_eq]
          exact he
        refine ⟨e, heMem, hKeeps n (List.mem_append_left _ hIndexed) c (List.mem_append_left _ hc)
          hAnswers e ?_ hAnswersName⟩
        rw [hEq] at heMem
        rcases List.mem_append.mp heMem with he | he
        · exact List.mem_append_right _ he
        · exact List.mem_append_left _ (hExtra e he).1

end Table

/-! ### Half migrated tables -/

namespace Plan

/-- What key columns that were brought, and those that get into the key, must be for a table to stay
sound. -/
theorem sound_of_origin (hTarget : Sound target.columns) (hKnown : Sound k.columns)
    (hSteps : Concern target steps) (hTable : tableAfter target (some k) steps = some x)
    (hBrought : ∀ c ∈ brought steps, c.folded ∈ foldedNames k.key → c.nullable = false)
    (hKeyed : (∃ step ∈ steps, step.change = .key) → ∀ t ∈ target.key,
      named? (brought steps) t.name = none → ∀ p, named? k.columns t.name = some p →
        p.nullable = false) : Sound x.columns := by
  have hDistinct : Distinct x.columns := distinct_tableAfter hTarget.distinct
    (fun t ht => Option.some.inj ht ▸ hKnown.distinct) x hTable
  refine ⟨hDistinct, fun y hy hIsKey => ?_⟩
  have hOrigin := outline_tableAfter hTarget.distinct hSteps hTable y.name
  rw [Column.named?_self hDistinct hy, Option.map_some] at hOrigin
  obtain ⟨c, hc, hOutline⟩ := Option.map_eq_some_iff.mp hOrigin.symm
  have hNullable : c.nullable = y.nullable := congrArg Prod.snd hOutline
  have hName : c.folded = y.folded :=
    congrArg (fun o : (String × String) × Bool => Text.lowerCase o.1.1) hOutline
  rw [← hNullable]
  have hKey : y.folded ∈ foldedNames x.key :=
    Column.folded_mem (List.mem_filter.mpr ⟨hy, hIsKey⟩)
  rw [← hName] at hKey
  rcases mem_key_tableAfter hSteps hTable hKey with hOld | ⟨step, hStep, hChange, hNew⟩
  · rcases Option.or_eq_some_iff.mp hc with hFirst | ⟨-, hFirst⟩
    · exact hBrought c (Column.mem_of_named? hFirst) hOld
    · obtain ⟨p, hp, hSame⟩ := List.mem_map.mp hOld
      obtain ⟨hpMem, hpKey⟩ := List.mem_filter.mp hp
      obtain rfl : p = c := List.inj_on_of_nodup_map hKnown.distinct hpMem
        (Column.mem_of_named? hFirst) hSame
      exact hKnown.keys p hpMem hpKey
  · obtain ⟨t, ht, hSame⟩ := List.mem_map.mp hNew
    obtain ⟨htMem, htKey⟩ := List.mem_filter.mp ht
    rcases Option.or_eq_some_iff.mp hc with hFirst | ⟨hNone, hFirst⟩
    · obtain rfl : t = c := List.inj_on_of_nodup_map hTarget.distinct htMem
        (mem_target_of_mem_brought hSteps (Column.mem_of_named? hFirst)) hSame
      exact hTarget.keys t htMem htKey
    · have hLower : Text.lowerCase y.name = Text.lowerCase t.name := (hSame.trans hName).symm
      rw [Column.named?_congr hLower] at hNone hFirst
      exact hKeyed ⟨step, hStep, hChange⟩ t ht hNone c hFirst

/-- A valid table that is known stays sound behind any step of a plan. -/
theorem sound_tableAfter_some (hKnown : Sound k.columns)
    (h : Plan.steps d (some k) target = .ok (done ++ rest))
    (hTable : tableAfter target (some k) done = some x) : Sound x.columns := by
  have hValid := validate_of_steps h
  have hTarget := (Table.validate_eq_ok_iff.mp hValid).1
  have hSteps : Concern target done := fun step hStep =>
    concern_of_steps h step (List.mem_append_left _ hStep)
  obtain ⟨-, -, key, -, -, hKeySteps, -⟩ := steps_some_eq_ok.mp h
  refine sound_of_origin hTarget hKnown hSteps hTable (fun c hc hOld => ?_)
    fun ⟨step, hStep, hChange⟩ t ht hNone p hFound => ?_
  · refine not_nullable_of_knownKey hValid hKeySteps (mem_target_of_mem_brought hSteps hc) ?_
    rwa [Table.foldedNames_key]
  · obtain ⟨htMem, htKey⟩ := List.mem_filter.mp ht
    rcases settled_of_late h hStep (.inl hChange) htMem with hBrought | ⟨q, hq, hDiffers⟩
    · rw [named?_brought hTarget.distinct hSteps hBrought (Column.isNamed_self t)] at hNone
      cases hNone
    · rw [Table.find?_eq_named? hFound] at hq
      obtain rfl := Option.some.inj hq
      rw [← Column.nullable_of_differs hDiffers]
      exact hTarget.keys t htMem htKey

/-- A created table has the sound columns of the target. -/
theorem sound_created (hTarget : Sound target.columns) (t : Table) :
    Sound (TableChange.create.apply target t).columns := by
  refine ⟨Column.distinct_map (fun _ => rfl) hTarget.distinct, fun y hy hKey => ?_⟩
  obtain ⟨c, hc, rfl⟩ := List.mem_map.mp hy
  exact hTarget.keys c hc hKey

/-- A table stays sound behind any step of a plan, be it known before or new. -/
theorem sound_tableAfter {known : Option Table} (hKnown : ∀ k ∈ known, Sound k.columns)
    (h : Plan.steps d known target = .ok (done ++ rest))
    (hTable : tableAfter target known done = some x) : Sound x.columns := by
  cases known with
  | some k => exact sound_tableAfter_some (hKnown k rfl) h hTable
  | none =>
      have hTarget := (Table.validate_eq_ok_iff.mp (validate_of_steps h)).1
      obtain ⟨later, hLater, hSteps, hNone, hNoKey⟩ := created_of_tableAfter h hTable
      refine sound_of_origin hTarget (sound_created hTarget _) hSteps hLater ?_ ?_
      · simp [hNone]
      · rintro ⟨step, hStep, hChange⟩
        exact absurd hChange (hNoKey step hStep)

/-- What a column that was brought, or else known, answers to, a column of the table does. -/
theorem answers_tableAfter (hTarget : Distinct target.columns) (hSteps : Concern target steps)
    (hTable : tableAfter target (some k) steps = some x) (name : String) {n : String} {c : Column}
    (hc : (named? (brought steps) name).or (named? k.columns name) = some c)
    (hAnswers : c.answersTo n = true) : ∃ y ∈ x.columns, y.answersTo n = true := by
  have hOrigin := outline_tableAfter hTarget hSteps hTable name
  rw [hc, Option.map_some] at hOrigin
  obtain ⟨y, hy, hOutline⟩ := Option.map_eq_some_iff.mp hOrigin
  refine ⟨y, Column.mem_of_named? hy, ?_⟩
  rw [Column.answersTo_congr (congrArg Prod.fst hOutline), hAnswers]

/-- A known column that an index is on may have been replaced, but not by one that the index does not
find. -/
theorem answers_of_known (hTarget : Distinct target.columns) (hKnown : Distinct k.columns)
    (hKeeps : k.KeepsIndexes target) (hSteps : Concern target steps)
    (hTable : tableAfter target (some k) steps = some x) {n : String}
    (hIndexed : n ∈ k.indexNames ++ target.indexNames) {c : Column} (hc : c ∈ k.columns)
    (hAnswers : c.answersTo n = true) : ∃ y ∈ x.columns, y.answersTo n = true := by
  have hThere := Column.named?_self hKnown hc
  cases hBrought : named? (brought steps) c.name with
  | none =>
      exact answers_tableAfter hTarget hSteps hTable c.name (by rw [hBrought, hThere]; rfl) hAnswers
  | some t =>
      have ht := mem_target_of_mem_brought hSteps (Column.mem_of_named? hBrought)
      have hName : t.answersTo c.name = true :=
        Column.answersTo_of_isNamed (Column.isNamed_of_named? hBrought)
      exact answers_tableAfter hTarget hSteps hTable c.name (by rw [hBrought]; rfl)
        (hKeeps n hIndexed c (List.mem_append_left _ hc) hAnswers t (List.mem_append_right _ ht)
          hName)

/-- Known indexes, and those that were created, are on columns of the table. -/
theorem names_tableAfter_some (hKnown : k.validate = .ok ()) (hKeeps : k.KeepsIndexes target)
    (h : Plan.steps d (some k) target = .ok (done ++ rest))
    (hTable : tableAfter target (some k) done = some x) :
    ∀ n ∈ x.indexNames, ∃ c ∈ x.columns, c.answersTo n = true := by
  obtain ⟨hTarget, hNames⟩ := Table.validate_eq_ok_iff.mp (validate_of_steps h)
  obtain ⟨hSound, hNamesK⟩ := Table.validate_eq_ok_iff.mp hKnown
  have hSteps : Concern target done := fun step hStep =>
    concern_of_steps h step (List.mem_append_left _ hStep)
  have hOld {n : String} (hIndexed : n ∈ k.indexNames ++ target.indexNames) {c : Column}
      (hc : c ∈ k.columns) (hAnswers : c.answersTo n = true) :=
    answers_of_known hTarget.distinct hSound.distinct hKeeps hSteps hTable hIndexed hc hAnswers
  intro n hn
  obtain ⟨i, hi, hMem⟩ := Table.mem_indexNames_iff.mp hn
  rcases mem_indexes_tableAfter hSteps hTable hi with hi | ⟨step, hStep, hChange⟩
  · have hIndexed : n ∈ k.indexNames := Table.mem_indexNames_iff.mpr ⟨i, hi, hMem⟩
    obtain ⟨c, hc, hAnswers⟩ := hNamesK n hIndexed
    exact hOld (List.mem_append_left _ hIndexed) hc hAnswers
  · have hiTarget : i ∈ target.indexes := by
      have hConcerns := (hSteps step hStep).1
      rwa [hChange] at hConcerns
    have hIndexed := List.mem_append_right k.indexNames
      (Table.mem_indexNames_iff.mpr ⟨i, hiTarget, hMem⟩)
    obtain ⟨t, ht, hAnswers⟩ := hNames n (Table.mem_indexNames_iff.mpr ⟨i, hiTarget, hMem⟩)
    rcases settled_of_late h hStep (.inr ⟨i, hChange⟩) ht with hThere | ⟨p, hp, -⟩
    · refine answers_tableAfter hTarget.distinct hSteps hTable t.name ?_ hAnswers
      rw [named?_brought hTarget.distinct hSteps hThere (Column.isNamed_self t), Option.some_or]
    · -- The column was known already, be it under its name or by its property.
      have hpMem := Table.mem_of_find? hp
      exact hOld hIndexed hpMem (hKeeps n hIndexed t (List.mem_append_right _ ht) hAnswers p
        (List.mem_append_left _ hpMem) (Table.answersTo_of_find? hp))

/-- Every column an index names is there after any part of a creation. -/
theorem names_tableAfter_none (h : Plan.steps d none target = .ok (done ++ rest))
    (hTable : tableAfter target none done = some x) :
    ∀ n ∈ x.indexNames, ∃ c ∈ x.columns, c.answersTo n = true := by
  obtain ⟨hTarget, hNames⟩ := Table.validate_eq_ok_iff.mp (validate_of_steps h)
  obtain ⟨later, hLater, hSteps, hNone, -⟩ := created_of_tableAfter h hTable
  intro n hn
  obtain ⟨i, hi, hMem⟩ := Table.mem_indexNames_iff.mp hn
  rcases mem_indexes_tableAfter hSteps hLater hi with hi | ⟨step, hStep, hChange⟩
  · exact absurd hi List.not_mem_nil
  · have hiTarget : i ∈ target.indexes := by
      have hConcerns := (hSteps step hStep).1
      rwa [hChange] at hConcerns
    obtain ⟨t, ht, hAnswers⟩ := hNames n (Table.mem_indexNames_iff.mpr ⟨i, hiTarget, hMem⟩)
    have hCreated : named? (TableChange.create.apply target { name := "" }).columns t.name =
        some { t with comment := "" } := by
      have hFound := Column.named?_map (f := fun c => { c with comment := "" }) (fun _ => rfl)
        target.columns t.name
      rwa [Column.named?_self hTarget.distinct ht] at hFound
    refine answers_tableAfter hTarget.distinct hSteps hLater t.name
      (by rw [hNone, Column.named?_nil, Option.none_or, hCreated]) ?_
    exact hAnswers

/-- A table stays valid behind any step of a plan. -/
theorem validate_tableAfter {known : Option Table}
    (hKnown : ∀ k ∈ known, k.validate = .ok () ∧ k.KeepsIndexes target)
    (h : Plan.steps d known target = .ok (done ++ rest))
    (hTable : tableAfter target known done = some x) : x.validate = .ok () := by
  refine Table.validate_eq_ok_iff.mpr ⟨?_, ?_⟩
  · exact sound_tableAfter (fun k hk => (Table.validate_eq_ok_iff.mp (hKnown k hk).1).1) h hTable
  · cases known with
    | none => exact names_tableAfter_none h hTable
    | some k => exact names_tableAfter_some (hKnown k rfl).1 (hKnown k rfl).2 h hTable

end Plan

end SqlMapper
