import SqlMapper.Proofs.Catalog.Slot
import SqlMapper.Proofs.Schema.Lookup

/-! The table that a successful commit registers. It begins with the target; columns and indexes that
only the known table has follow in their order. -/
namespace SqlMapper

namespace Table

open Column

/-! ### Columns -/

/-- What joins a table are columns that it does not find, and none of them has a name twice. -/
theorem exists_withUnknown (t : Table) (cs : List Column) :
    ∃ extra, t.withUnknown cs = { t with columns := t.columns ++ extra } ∧
      (∀ k ∈ extra, k ∈ cs ∧ t.find? k.name = none) ∧
      (Distinct t.columns → Distinct (t.columns ++ extra)) := by
  induction cs generalizing t with
  | nil => exact ⟨[], by simp [withUnknown], by simp, by simp⟩
  | cons c cs ih =>
      rw [withUnknown]
      cases hFound : t.find? c.name with
      | some k =>
          obtain ⟨extra, hEq, hMem, hDistinct⟩ := ih t
          exact ⟨extra, hEq, fun x hx => ⟨List.mem_cons_of_mem _ (hMem x hx).1, (hMem x hx).2⟩,
            hDistinct⟩
      | none =>
          obtain ⟨extra, hEq, hMem, hDistinct⟩ := ih { t with columns := t.columns ++ [c] }
          refine ⟨c :: extra, by simpa using hEq, ?_, fun h => ?_⟩
          · intro x hx
            rcases List.mem_cons.mp hx with rfl | hx
            · exact ⟨List.mem_cons_self .., hFound⟩
            · refine ⟨List.mem_cons_of_mem _ (hMem x hx).1, find?_eq_none_iff.mpr fun k hk => ?_⟩
              exact find?_eq_none_iff.mp (hMem x hx).2 k (List.mem_append_left _ hk)
          · have hNew : c.folded ∉ foldedNames t.columns := by
              rintro hMem
              obtain ⟨k, hk, hSame⟩ := List.mem_map.mp hMem
              have hNot := find?_eq_none_iff.mp hFound k hk
              simp [answersTo, isNamed_iff.mpr hSame] at hNot
            simpa using hDistinct (distinct_concat h hNew)

/-- Where no property has the name of another column, a table is joined by the columns whose names
are new. -/
theorem withUnknown_eq_of_apart {t : Table} {cs : List Column} (hApart : Apart (t.columns ++ cs))
    (hDistinct : Distinct cs) :
    t.withUnknown cs = { t with columns := t.columns ++ lacking t.columns cs } := by
  induction cs generalizing t with
  | nil => simp [withUnknown, lacking]
  | cons c cs ih =>
      obtain ⟨hNew, hRest⟩ := List.nodup_cons.mp hDistinct
      have hMem : c ∈ t.columns ++ c :: cs := by simp
      have hFind := find?_eq_of_apart hApart (List.subset_append_left _ _) hMem
      rw [withUnknown]
      cases hNamed : named? t.columns c.name with
      | some k =>
          rw [hNamed] at hFind
          have hApartRest : Apart (t.columns ++ cs) :=
            hApart.of_subset (by simp)
          rw [hFind, ih hApartRest hRest]
          simp [lacking, hNamed]
      | none =>
          rw [hNamed] at hFind
          have hApartRest : Apart (t.columns ++ [c] ++ cs) := by simpa using hApart
          have hLacking : lacking (t.columns ++ [c]) cs = lacking t.columns cs := by
            refine List.filter_congr fun k hk => ?_
            simp [named?_append, named?_cons, not_isNamed_of_mem hNew hk]
          rw [hFind, ih (t := { t with columns := t.columns ++ [c] }) hApartRest hRest, hLacking]
          simp [lacking, hNamed]

/-- What is found among some columns is found among more of them. -/
theorem find?_ne_none_of_subset {t u : Table} (hSubset : t.columns ⊆ u.columns) {name : String}
    (h : t.find? name ≠ none) : u.find? name ≠ none := by
  rw [ne_eq, find?_eq_none_iff] at h ⊢
  exact fun hNone => h fun c hc => hNone c (hSubset hc)

/-- Every name that joins is found afterwards, be it the name of a column or a property. -/
theorem find?_withUnknown_ne_none (t : Table) {cs : List Column} {c : Column} (hMem : c ∈ cs) :
    (t.withUnknown cs).find? c.name ≠ none := by
  induction cs generalizing t with
  | nil => simp at hMem
  | cons d cs ih =>
      have hStays (u : Table) : u.columns ⊆ (u.withUnknown cs).columns := by
        obtain ⟨extra, hEq, -⟩ := exists_withUnknown u cs
        rw [hEq]
        exact List.subset_append_left _ _
      rw [withUnknown]
      rcases List.mem_cons.mp hMem with rfl | hMem
      · cases hFound : t.find? c.name with
        | some k => exact find?_ne_none_of_subset (hStays t) (by simp [hFound])
        | none =>
            refine find?_ne_none_of_subset (hStays _) ?_
            rw [ne_eq, find?_eq_none_iff]
            exact fun hNone => absurd (hNone c (by simp)) (by simp [answersTo])
      · cases t.find? d.name with
        | some k => exact ih t hMem
        | none => exact ih _ hMem

/-- Where no property has the name of another column, every name that joins becomes the name of a
column. -/
theorem mem_foldedNames_withUnknown {t : Table} {cs : List Column}
    (hApart : Apart (t.columns ++ cs)) (name : String) :
    name ∈ foldedNames (t.withUnknown cs).columns ↔
      name ∈ foldedNames t.columns ∨ name ∈ foldedNames cs := by
  obtain ⟨extra, hEq, hExtra, -⟩ := exists_withUnknown t cs
  constructor
  · intro hMem
    rw [hEq] at hMem
    obtain ⟨c, hc, rfl⟩ := List.mem_map.mp hMem
    rcases List.mem_append.mp hc with hc | hc
    · exact .inl (folded_mem hc)
    · exact .inr (folded_mem (hExtra c hc).1)
  · rintro (hMem | hMem)
    · rw [hEq]
      exact List.map_subset folded (List.subset_append_left _ _) hMem
    · obtain ⟨c, hc, rfl⟩ := List.mem_map.mp hMem
      have hSubset : (t.withUnknown cs).columns ⊆ t.columns ++ cs := by
        rw [hEq]
        exact List.append_subset.mpr ⟨List.subset_append_left _ _,
          fun k hk => List.mem_append_right _ (hExtra k hk).1⟩
      have hFound := find?_withUnknown_ne_none t hc
      rw [find?_eq_of_apart hApart hSubset (List.mem_append_right _ hc), ne_eq,
        named?_eq_none_iff, not_not] at hFound
      exact hFound

/-! ### Indexes -/

/-- The indexes of a table are first among all. -/
theorem exists_withUnknownIndexes (is js : List Index) :
    ∃ extra, withUnknownIndexes is js = is ++ extra := by
  induction js generalizing is with
  | nil => exact ⟨[], by simp [withUnknownIndexes]⟩
  | cons j js ih =>
      rw [withUnknownIndexes]
      split
      next => exact ih is
      next =>
        obtain ⟨extra, h⟩ := ih (is ++ [j])
        exact ⟨j :: extra, by simp [h]⟩

/-- An index that is there already changes nothing wherever else its name comes up. -/
theorem withUnknownIndexes_moved {is : List Index} {i : Index} (hMem : i ∈ is) (js : List Index) :
    withUnknownIndexes is (js.filter (·.name != i.name) ++ [i]) = withUnknownIndexes is js := by
  induction js generalizing is with
  | nil =>
      have hThere : is.any (·.name == i.name) = true := List.any_eq_true.mpr ⟨i, hMem, by simp⟩
      simp [withUnknownIndexes, hThere]
  | cons j js ih =>
      rw [List.filter_cons, withUnknownIndexes]
      by_cases hSame : j.name = i.name
      · have hThere : is.any (·.name == j.name) = true :=
          List.any_eq_true.mpr ⟨i, hMem, by simp [hSame]⟩
        simp only [hSame, bne_self_eq_false, Bool.false_eq_true, if_false]
        rw [hSame] at hThere
        rw [if_pos hThere, ih hMem]
      · have hKept : (j.name != i.name) = true := by simpa using hSame
        rw [if_pos hKept, List.cons_append, withUnknownIndexes]
        split
        next => exact ih hMem
        next => exact ih (List.mem_append_left _ hMem)

/-! ### Whole tables -/

/-- The target without its cache, with what only the known table has behind it. -/
theorem merged_eq (target : Table) (known : Option Table) :
    target.merged known =
      { ({ target with mappings := [] } : Table).withUnknown (known.elim [] Table.columns) with
        indexes := withUnknownIndexes target.indexes (known.elim [] Table.indexes) } := by
  cases known with
  | none => rfl
  | some k => rfl

/-- The merged table is the target, longer by columns that the target does not find and by
indexes. -/
theorem exists_merged (target : Table) (known : Option Table) :
    ∃ columns indexes, target.merged known =
        { target with mappings := [], columns := target.columns ++ columns,
                      indexes := target.indexes ++ indexes } ∧
      (∀ k ∈ columns, k ∈ known.elim [] Table.columns ∧ target.find? k.name = none) ∧
      (Distinct target.columns → Distinct (target.columns ++ columns)) := by
  obtain ⟨columns, hColumns, hMem, hDistinct⟩ :=
    exists_withUnknown { target with mappings := [] } (known.elim [] Table.columns)
  obtain ⟨indexes, hIndexes⟩ :=
    exists_withUnknownIndexes target.indexes (known.elim [] Table.indexes)
  exact ⟨columns, indexes, by rw [merged_eq, hColumns, hIndexes], hMem, hDistinct⟩

@[simp] theorem merged_name (target : Table) (known : Option Table) :
    (target.merged known).name = target.name := by
  obtain ⟨_, _, h, -⟩ := exists_merged target known
  rw [h]

@[simp] theorem merged_schema (target : Table) (known : Option Table) :
    (target.merged known).schema = target.schema := by
  obtain ⟨_, _, h, -⟩ := exists_merged target known
  rw [h]

end Table

/-- A session knows the table that it registers. -/
theorem Session.known?_put_merged (s : Session) (db : Database) (known : Option Table) :
    s.known? (db.put (s.target.merged known)) = some (s.target.merged known) :=
  known?_put (by rw [Database.schemaOf, Database.schemaOf, Table.merged_schema])
    (by rw [Table.merged_name])

end SqlMapper
