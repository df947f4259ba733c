import SqlMapper.Proofs.Migration.Layout

/-! New tables. The statement that creates a table gives it the columns and the key of the target, and
comments and indexes follow. -/
namespace SqlMapper

open Column (named?)

namespace Layout

variable {target : Table} {l : Layout} {steps : List Step} {m : Dialect.Meaning .generic}

/-- The names of the definitions are those of the columns, and a definition declares the key where
the key is a single column. -/
theorem names_of_clauses {cs : List Column} {clauses : List ColumnClause} {alone : Bool}
    (h : List.Forall₂ (fun c clause =>
      ColumnClause.ofColumn .generic target.name c (alone && c.isKey) = .ok clause) cs clauses) :
    (clauses.map ColumnClause.definition).map Definition.name = cs.map Column.name ∧
      ((clauses.map ColumnClause.definition).filter (·.isKey)).map Definition.name =
        if alone then (cs.filter (·.isKey)).map Column.name else [] := by
  induction h with
  | nil => cases alone <;> exact ⟨rfl, rfl⟩
  | @cons c clause cs clauses hFirst _ ih =>
      obtain ⟨-, -, hName, -, hKey⟩ := ColumnClause.ofColumn_eq_ok hFirst
      obtain ⟨hNames, hDeclared⟩ := ih
      have hName' : clause.definition.name = c.name := hName
      have hKey' : clause.definition.isKey = (alone && c.isKey) := hKey
      refine ⟨by rw [List.map_cons, List.map_cons, List.map_cons, hName', hNames], ?_⟩
      rw [List.map_cons, List.filter_cons, hKey']
      cases alone with
      | false => simpa using hDeclared
      | true =>
          cases hIsKey : c.isKey with
          | false => simpa [hIsKey] using hDeclared
          | true => simpa [hIsKey, hName'] using hDeclared

/-- The definition of a column is found under its name. -/
theorem find?_clauses {cs : List Column} {clauses : List ColumnClause} {R : Column → ColumnClause → Prop}
    (h : List.Forall₂ R cs clauses) (hName : ∀ c clause, R c clause → clause.name = c.name)
    (name : String) :
    Option.Rel R (named? cs name) (clauses.find? fun clause => Text.sameName clause.name name) := by
  induction h with
  | nil => exact .none
  | @cons c clause cs clauses hFirst _ ih =>
      rw [Column.named?_cons, List.find?_cons, hName c clause hFirst, Column.isNamed]
      cases Text.sameName c.name name with
      | true => exact .some hFirst
      | false => exact ih

/-- A name is one of the key of a table exactly where it is that of a key column. -/
theorem any_keyNames (hValid : target.validate = .ok ()) {c : Column} (hMem : c ∈ target.columns) :
    target.keyNames.any (Text.sameName · c.name) = c.isKey := by
  rw [Bool.eq_iff_iff, List.any_eq_true]
  constructor
  · rintro ⟨n, hn, hSame⟩
    obtain ⟨k, hk, rfl⟩ := List.mem_map.mp hn
    obtain ⟨hkMem, hkKey⟩ := List.mem_filter.mp hk
    obtain rfl : k = c := List.inj_on_of_nodup_map (Table.distinct_of_validate hValid) hkMem hMem
      (Text.sameName_iff.mp hSame)
    exact hkKey
  · intro hKey
    exact ⟨c.name, List.mem_map_of_mem (List.mem_filter.mpr ⟨hMem, hKey⟩), Text.sameName_self _⟩

/-- A column of a new table has its shape. -/
theorem hasShape_of_created (hValid : target.validate = .ok ()) {c : Column}
    (hMem : c ∈ target.columns) {alone : Bool} {clause : ColumnClause}
    (h : ColumnClause.ofColumn .generic target.name c (alone && c.isKey) = .ok clause) :
    (clause.definition.field (target.keyNames.any (Text.sameName · clause.name))).HasShape m c := by
  obtain ⟨-, -, hName, hNotNull, -⟩ := ColumnClause.ofColumn_eq_ok h
  refine Field.hasShape_of_clause h ?_
  rw [hName, any_keyNames hValid hMem, hNotNull]
  cases hKey : c.isKey with
  | true => rw [Table.not_nullable_of_validate hValid hMem hKey, Bool.or_true]; rfl
  | false => simp

/-- The key of a new table is declared once: by its single column or behind all columns. -/
theorem declared_once (t : Table) :
    let declared := if decide (t.key.length = 1) then t.keyNames else []
    let compositeKey := if 1 < t.key.length then t.keyNames else []
    declared ++ compositeKey = t.keyNames ∧
      declared.length + (if compositeKey.isEmpty then 0 else 1) ≤ 1 := by
  have hLength : t.keyNames.length = t.key.length := List.length_map _
  rcases Nat.lt_trichotomy t.key.length 1 with hNone | hOne | hMany
  · have hNil : t.keyNames = [] := List.length_eq_zero_iff.mp (by omega)
    simp [hNil]
  · simp [hOne, hLength]
  · have hNot : t.key.length ≠ 1 := by omega
    simp only [hNot, hMany, decide_false, Bool.false_eq_true, if_false, if_true, List.nil_append,
      List.length_nil, true_and]
    split <;> omega

/-- A new table has the key of the target and columns that have their shapes. -/
theorem create?_eq_some (hValid : target.validate = .ok ()) {edit : Edit}
    (h : Edit.creating .generic target = .ok edit) :
    ∃ clauses compositeKey l, edit = .createTable clauses compositeKey ∧
      create? (clauses.map ColumnClause.definition) compositeKey = some l ∧ l.key = target.keyNames ∧
      (∀ c ∈ target.columns, ∃ f, l.field? c.name = some f ∧ f.HasShape m c ∧
        f.comment = "") ∧
      ∀ name, named? target.columns name = none → l.field? name = none := by
  obtain ⟨clauses, rfl, hClauses⟩ := Edit.creating_eq_ok h
  obtain ⟨hNames, hNamesOfKeys⟩ := names_of_clauses hClauses
  let columns := clauses.map ColumnClause.definition
  have hDeclared : (columns.filter (·.isKey)).map Definition.name =
      if decide (target.key.length = 1) then target.keyNames else [] := hNamesOfKeys
  obtain ⟨hKey, hOnce⟩ := declared_once target
  have hDistinct := Table.distinct_of_validate hValid
  let l : Layout :=
    { fields := clauses.map fun clause =>
        clause.definition.field (target.keyNames.any (Text.sameName · clause.name))
      key := target.keyNames }
  have hRel (name : String) := find?_clauses hClauses
    (fun c clause h => (ColumnClause.ofColumn_eq_ok h).2.2.1) name
  have hField (name : String) : l.field? name =
      (clauses.find? fun clause => Text.sameName clause.name name).map fun clause =>
        clause.definition.field (target.keyNames.any (Text.sameName · clause.name)) := by
    rw [field?, List.find?_map]
    rfl
  have hFields : ∀ c ∈ target.columns, ∃ f, l.field? c.name = some f ∧ f.HasShape m c ∧
      f.comment = "" := by
    intro c hMem
    have hFound := hRel c.name
    rw [Column.named?_self hDistinct hMem] at hFound
    generalize hClause : clauses.find? (fun clause => Text.sameName clause.name c.name) = found
      at hFound
    cases hFound with
    | @some _ clause hOf =>
        refine ⟨_, by rw [hField, hClause]; rfl, hasShape_of_created hValid hMem hOf, ?_⟩
        simp [Definition.field, ColumnClause.definition, ColumnClause.comment_ofColumn hOf rfl]
  refine ⟨clauses, _, l, rfl, ?_, rfl, hFields, fun name hNone => ?_⟩
  · have hThere := all_has_keyNames (has_of_fields hFields)
    have hColumns : DistinctNames (columns.map Definition.name) := by
      rw [hNames, DistinctNames, List.map_map]
      exact hDistinct
    have hMade : (columns.map fun column =>
        column.field (target.keyNames.any (Text.sameName · column.name))) = l.fields := List.map_map ..
    change create? columns _ = some l
    simp only [create?, hDeclared, hKey, hMade]
    exact if_pos ⟨hColumns, hOnce, distinctNames_keyNames hValid, hThere⟩
  · have hFound := hRel name
    rw [hNone] at hFound
    generalize hClause : clauses.find? (fun clause => Text.sameName clause.name name) = found
      at hFound
    cases hFound
    rw [hField, hClause]
    rfl

/-- A table that is not known is created as the target. -/
theorem runOn_none (h : Plan.steps .generic none target = .ok steps) :
    ∃ after, runOn none (Plan.statements steps) = some after ∧ after.Meets m target ∧
      after.Spares target none := by
  obtain ⟨hValid, edit, indexes, hCreate, hIndexes, rfl⟩ := Plan.steps_none_eq_ok.mp h
  obtain ⟨clauses, compositeKey, new, rfl, hNew, hKey, hFields, hOthers⟩ :=
    create?_eq_some hValid hCreate
  let ready (c : Column) (field : Option Field) : Prop :=
    ∃ f, field = some f ∧ f.HasShape m c ∧ f.comment = ""
  have hEach : List.Forall₂ (fun c own => ∀ l : Layout, l.key = new.key → ready c (l.field? c.name) →
      ∃ l' f, l.runAll (Plan.statements own) = some l' ∧ SameBut c.name l l' ∧
        l'.field? c.name = some f ∧ f.Meets m c)
      target.columns (target.columns.map (Plan.commentSteps .generic · none)) := by
    rw [List.forall₂_map_right_iff, List.forall₂_same]
    intro c _ l _ hReady
    obtain ⟨f, hField, hShape, hComment⟩ := hReady
    exact run_commentSteps hField hShape hComment
  obtain ⟨commented, hComments, hKey', hSame, hMeets, hOthers'⟩ :=
    runAll_flatten ready (Table.distinct_of_validate hValid) hEach rfl hFields
  obtain ⟨after, hIndexed, hKey'', hSame', hPrefix, hAll⟩ :=
    run_indexing (has_of_fields hMeets) hIndexes
  have hField (name : String) : after.field? name = commented.field? name := by
    rw [field?, hSame', field?]
  refine ⟨after, ?_, ⟨?_, ?_, hAll⟩, ⟨fun name hNone => ?_, List.nil_prefix⟩⟩
  · rw [Plan.map_commentOn]
    change (create? (clauses.map ColumnClause.definition) compositeKey).bind
      (·.runAll (Plan.statements (_ ++ indexes))) = _
    rw [hNew, Option.bind_some, Plan.statements_append, runAll_append hComments, hIndexed]
  · intro c hMem
    rw [hField]
    exact hMeets c hMem
  · rw [hKey'', hKey', hKey]
  · rw [hField, hOthers' name hNone, hOthers name hNone]
    rfl

end Layout

end SqlMapper
