import SqlMapper.Proofs.Migration.Field
import SqlMapper.Proofs.Schema.Lookup

/-! Tables as a database has them, beside those that are known and those that are wanted. The steps of
several columns are possible together; a key is added to columns that are there, and so are
indexes. -/
namespace SqlMapper

open Column (Distinct named?)

/-! ### Tables of a database -/

namespace Layout

variable {d : Dialect}

/-- The table is as it is known. -/
structure Depicts (m : d.Meaning) (l : Layout) (t : Table) : Prop where
  fields : ∀ name, Option.Rel (Field.Depicts m) (l.field? name) (named? t.columns name)
  key : (l.key.map Text.lowerCase).Perm (t.keyNames.map Text.lowerCase)
  indexes : l.indexes.map Index.name = t.indexes.map Index.name

/-- The table is what the target has. -/
structure Meets (m : d.Meaning) (l : Layout) (target : Table) : Prop where
  fields : ∀ c ∈ target.columns, ∃ f, l.field? c.name = some f ∧ f.Meets m c
  key : (l.key.map Text.lowerCase).Perm (target.keyNames.map Text.lowerCase)
  indexes : ∀ i ∈ target.indexes, l.hasIndex i.name = true

/-- What the target lacks is as it was before. -/
structure Spares (target : Table) (before : Option Layout) (after : Layout) : Prop where
  fields : ∀ name, named? target.columns name = none →
    after.field? name = before.bind (·.field? name)
  indexes : before.elim [] Layout.indexes <+: after.indexes

/-- A table as a database has it that knows nothing else. A type without a name is left empty, and so
is a default without a literal. -/
def of (d : Dialect) (t : Table) : Layout where
  fields := t.columns.map fun c =>
    { name := c.name
      type := ((d.columnType t.name c).toOption).getD ""
      notNull := !c.nullable || c.isKey
      default := c.default.map fun v => v.asLiteral ((d.literal v).toOption.getD "")
      comment := c.comment }
  key := t.keyNames
  indexes := t.indexes

/-- Every table can be as it is known. -/
theorem depicts_of (d : Dialect) (t : Table) : (of d t).Depicts (.strict d) t where
  fields name := by
    rw [field?, of, List.find?_map]
    change Option.Rel _ (Option.map _ (named? t.columns name)) (named? t.columns name)
    cases named? t.columns name with
    | none => exact .none
    | some c =>
        refine .some ⟨fun table type hType => ?_, rfl, ?_, rfl⟩
        · dsimp only
          rw [Dialect.toOption_columnType_eq d t.name table, hType]
          exact Text.sameName_self type
        · dsimp only
          cases c.default with
          | none => exact .none
          | some v =>
              refine .some fun text hText => ?_
              dsimp only
              rw [hText]
              rfl
  key := .refl _
  indexes := rfl

variable {known target : Table} {l : Layout} {steps : List Step} {m : Dialect.Meaning .generic}

/-! ### Columns -/

/-- Steps of distinct columns, each of which is possible and leaves the other columns alone, are
possible together. -/
theorem runAll_flatten {cs : List Column} {owns : List (List Step)} {m : d.Meaning} {key : List String}
    (ready : Column → Option Field → Prop) (hDistinct : Distinct cs)
    (hEach : List.Forall₂ (fun c own => ∀ l : Layout, l.key = key → ready c (l.field? c.name) →
      ∃ l' f, l.runAll (Plan.statements own) = some l' ∧ SameBut c.name l l' ∧
        l'.field? c.name = some f ∧ f.Meets m c) cs owns)
    (hKey : l.key = key) (hReady : ∀ c ∈ cs, ready c (l.field? c.name)) :
    ∃ l', l.runAll (Plan.statements owns.flatten) = some l' ∧ l'.key = l.key ∧ l'.indexes = l.indexes ∧
      (∀ c ∈ cs, ∃ f, l'.field? c.name = some f ∧ f.Meets m c) ∧
      ∀ name, named? cs name = none → l'.field? name = l.field? name := by
  -- The steps of one column find the next ones as they were, since their names are other ones.
  induction hEach generalizing l with
  | nil => exact ⟨l, rfl, rfl, rfl, by simp, fun _ _ => rfl⟩
  | @cons c own cs owns hFirst _ ih =>
      obtain ⟨hNew, hRest⟩ := List.nodup_cons.mp hDistinct
      obtain ⟨l₁, f, hRun, hSame, hField, hMeets⟩ :=
        hFirst l hKey (hReady c (List.mem_cons_self ..))
      obtain ⟨l', hLater, hKey', hIndexes', hFields', hOthers'⟩ :=
        ih hRest (hSame.key.trans hKey) fun x hx => by
          rw [hSame.others _ (Column.not_isNamed_of_mem hNew hx)]
          exact hReady x (List.mem_cons_of_mem _ hx)
      refine ⟨l', ?_, hKey'.trans hSame.key, hIndexes'.trans hSame.indexes, ?_, ?_⟩
      · rw [List.flatten_cons, Plan.statements_append, runAll_append hRun, hLater]
      · intro x hx
        rcases List.mem_cons.mp hx with rfl | hx
        · have hMissing : named? cs x.name = none := Column.named?_eq_none_iff.mpr hNew
          exact ⟨f, by rw [hOthers' _ hMissing, hField], hMeets⟩
        · exact hFields' x hx
      · intro name hMissing
        rw [Column.named?_cons] at hMissing
        split at hMissing
        next => simp at hMissing
        next hNamed =>
          rw [hOthers' name hMissing]
          exact hSame.others name (by simpa [Column.isNamed] using hNamed)

/-! ### Keys and indexes -/

/-- Columns that are found are there. -/
theorem has_of_fields {P : Column → Field → Prop}
    (h : ∀ c ∈ target.columns, ∃ f, l.field? c.name = some f ∧ P c f) :
    ∀ c ∈ target.columns, l.has c.name = true := by
  intro c hc
  obtain ⟨f, hf, -⟩ := h c hc
  exact has_iff.mpr ⟨f, hf⟩

/-- A key of the target changes no column that has its shape. -/
theorem field?_withKey_keyNames (hValid : target.validate = .ok ())
    (hFields : ∀ c ∈ target.columns, ∃ f, l.field? c.name = some f ∧ f.Meets m c)
    (name : String) : (l.withKey target.keyNames).field? name = l.field? name := by
  rw [field?_withKey]
  cases hField : l.field? name with
  | none => rfl
  | some f =>
      suffices hNotNull : (f.notNull || target.keyNames.any (Text.sameName · name)) = f.notNull by
        rw [Option.map_some, hNotNull]
      cases hAny : target.keyNames.any (Text.sameName · name) with
      | false => rw [Bool.or_false]
      | true =>
          obtain ⟨n, hn, hSame⟩ := List.any_eq_true.mp hAny
          obtain ⟨c, hc, rfl⟩ := List.mem_map.mp hn
          obtain ⟨hMem, hKey⟩ := List.mem_filter.mp hc
          obtain ⟨g, hg, hMeets⟩ := hFields c hMem
          rw [field?_congr (Text.sameName_iff.mp hSame), hField] at hg
          obtain rfl := Option.some.inj hg
          rw [hMeets.notNull, Table.not_nullable_of_validate hValid hMem hKey]
          rfl

/-- A valid table names no key column twice. -/
theorem distinctNames_keyNames (hValid : target.validate = .ok ()) :
    DistinctNames target.keyNames := by
  rw [DistinctNames, Table.foldedNames_key]
  exact Table.distinct_key (Table.distinct_of_validate hValid)

/-- A table that has the columns of the target has those of its key. -/
theorem all_has_keyNames (h : ∀ c ∈ target.columns, l.has c.name = true) :
    target.keyNames.all l.has = true := by
  refine List.all_eq_true.mpr fun n hn => ?_
  obtain ⟨c, hc, rfl⟩ := List.mem_map.mp hn
  exact h c (List.mem_filter.mp hc).1

/-- The key step gives the table the key of the target. -/
theorem run_keySteps (hValid : target.validate = .ok ())
    (hKey : (l.key.map Text.lowerCase).Perm (known.keyNames.map Text.lowerCase))
    (hFields : ∀ c ∈ target.columns, ∃ f, l.field? c.name = some f ∧ f.Meets m c)
    (h : Plan.keySteps .generic known target = .ok steps) :
    ∃ l', l.runAll (Plan.statements steps) = some l' ∧
      (l'.key.map Text.lowerCase).Perm (target.keyNames.map Text.lowerCase) ∧
      l'.indexes = l.indexes ∧ ∀ name, l'.field? name = l.field? name := by
  have hDistinct := distinctNames_keyNames hValid
  rcases Plan.keySteps_eq_ok h with ⟨hSame, rfl⟩ | ⟨hOther, hNone, -, rfl⟩
  · exact ⟨l, rfl, hKey.trans (Table.perm_of_sameNames hSame hDistinct).symm, rfl, fun _ => rfl⟩
  · refine ⟨l.withKey target.keyNames, ?_, .refl _, rfl, field?_withKey_keyNames hValid hFields⟩
    have hNames : known.keyNames = [] := by rw [Table.keyNames, hNone, List.map_nil]
    have hNoKey : l.key = [] := by simpa [hNames] using hKey
    have hSome : target.keyNames.isEmpty = false := by
      rw [hNames] at hOther
      cases hTarget : target.keyNames with
      | nil => simp [hTarget, Table.sameNames] at hOther
      | cons n ns => rfl
    have hThere := all_has_keyNames (has_of_fields hFields)
    change l.runAll [.alterTable [.addKey target.keyNames]] = _
    rw [runAll_singleton, run_single, act, hNoKey, hSome, hThere]
    simp [hDistinct]

/-- An index that is there stays when indexes are added. -/
theorem hasIndex_of_subset {l l' : Layout} (h : l.indexes ⊆ l'.indexes) {name : String}
    (hThere : l.hasIndex name = true) : l'.hasIndex name = true := by
  obtain ⟨i, hi, hName⟩ := List.any_eq_true.mp hThere
  exact List.any_eq_true.mpr ⟨i, h hi, hName⟩

/-- The columns of a planned index are columns of the target. -/
theorem exists_of_indexColumns {columns written : List (String × Direction)}
    (h : Edit.indexColumns target columns = .ok written) :
    ∀ x ∈ written, ∃ c ∈ target.columns, c.name = x.1 := by
  induction columns generalizing written with
  | nil =>
      obtain rfl := Except.ok.inj h
      simp
  | cons column columns ih =>
      simp only [Edit.indexColumns, Result.bind_eq_ok_iff] at h
      obtain ⟨c, hColumn, rest, hRest, hWritten⟩ := h
      obtain rfl := Except.ok.inj hWritten
      intro x hx
      rcases List.mem_cons.mp hx with rfl | hx
      · refine ⟨c, ?_, rfl⟩
        rw [Table.column] at hColumn
        split at hColumn
        next found hFound =>
          obtain rfl := Except.ok.inj hColumn
          exact Table.mem_of_find? hFound
        next => simp at hColumn
      · exact ih hRest x hx

/-- The index steps create those indexes that are missing. -/
theorem run_indexing {is : List Index} (hFields : ∀ c ∈ target.columns, l.has c.name = true)
    (h : Step.indexing .generic target is = .ok steps) :
    ∃ l', l.runAll (Plan.statements steps) = some l' ∧ l'.key = l.key ∧ l'.fields = l.fields ∧
      l.indexes <+: l'.indexes ∧ ∀ i ∈ is, l'.hasIndex i.name = true := by
  induction is generalizing l steps with
  | nil =>
      obtain rfl := Except.ok.inj h
      exact ⟨l, rfl, rfl, rfl, List.prefix_refl _, by simp⟩
  | cons i is ih =>
      obtain ⟨edit, rest, hEdit, hRest, rfl⟩ := Plan.indexing_cons_eq_ok.mp h
      obtain ⟨columns, hColumns, rfl⟩ := Plan.edit_indexing_eq_ok hEdit
      have hThere : columns.all (l.has ·.1) = true := by
        refine List.all_eq_true.mpr fun x hx => ?_
        obtain ⟨c, hc, hName⟩ := exists_of_indexColumns hColumns x hx
        rw [← hName]
        exact hFields c hc
      have hFirst : ∃ m : Layout, l.run (.createIndex i.name i.unique true columns) = some m ∧
          m.key = l.key ∧ m.fields = l.fields ∧ l.indexes <+: m.indexes ∧
          m.hasIndex i.name = true := by
        rw [run, hThere]
        cases hIndex : l.hasIndex i.name with
        | true => exact ⟨l, rfl, rfl, rfl, List.prefix_refl _, hIndex⟩
        | false => exact ⟨_, rfl, rfl, rfl, List.prefix_append .., by simp [hasIndex]⟩
      obtain ⟨m, hRun, hKey, hSame, hPrefix, hHas⟩ := hFirst
      have hFields' : ∀ c ∈ target.columns, m.has c.name = true := by
        intro c hc
        rw [has, field?, hSame]
        exact hFields c hc
      obtain ⟨l', hLater, hKey', hSame', hPrefix', hAll⟩ := ih hFields' hRest
      refine ⟨l', ?_, hKey'.trans hKey, hSame'.trans hSame, hPrefix.trans hPrefix', ?_⟩
      · change (l.run (.createIndex i.name i.unique true columns)).bind (·.runAll _) = _
        rw [hRun, Option.bind_some]
        exact hLater
      · intro j hj
        rcases List.mem_cons.mp hj with rfl | hj
        · exact hasIndex_of_subset hPrefix'.subset hHas
        · exact hAll j hj

end Layout

end SqlMapper
