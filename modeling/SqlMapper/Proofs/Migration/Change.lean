import SqlMapper.Proofs.Migration.Merge

/-! What steps make of the known table. Each one keeps names distinct and properties apart, and none
of them changes what the table and its target come to when they are merged. -/
namespace SqlMapper

namespace Column

variable {c : Column} {cs ts : List Column}

/-- What changes no name of a column leaves distinct names distinct. -/
theorem distinct_map {f : Column → Column} (hName : ∀ c, (f c).name = c.name) (h : Distinct cs) :
    Distinct (cs.map f) := by
  have hNames : foldedNames (cs.map f) = foldedNames cs := by
    simp only [foldedNames, List.map_map]
    exact List.map_congr_left fun c _ => congrArg Text.lowerCase (hName c)
  rwa [Distinct, hNames]

/-- The column with the place in the key and the comment of one that was there before. -/
def keeping (c : Column) (previous : Option Column) : Column :=
  { c with
    isKey := previous.elim false isKey
    comment := previous.elim "" comment }

/-! ### Comments -/

/-- Registering a comment leaves the names of the columns as they were. -/
theorem foldedNames_setComment (c : Column) (cs : List Column) :
    foldedNames (TableChange.setComment c cs) = foldedNames cs := by
  induction cs with
  | nil => rfl
  | cons d ds ih =>
      rw [TableChange.setComment]
      split
      next => rfl
      next => exact congrArg (d.folded :: ·) ih

/-- Only the column of the name gets the comment. -/
theorem named?_setComment (c : Column) (cs : List Column) (name : String) :
    named? (TableChange.setComment c cs) name =
      if c.isNamed name then (named? cs name).map fun d => { d with comment := c.comment }
      else named? cs name := by
  induction cs with
  | nil => simp [TableChange.setComment]
  | cons d ds ih =>
      rw [TableChange.setComment]
      split
      next hd =>
        have hSame : d.isNamed name = c.isNamed name := by
          rw [Bool.eq_iff_iff, isNamed_iff, isNamed_iff, isNamed_iff.mp hd, folded]
        have hCommented : ({ d with comment := c.comment } : Column).isNamed name = d.isNamed name := rfl
        rw [named?_cons, named?_cons, hCommented, hSame]
        cases c.isNamed name <;> rfl
      next hd =>
        rw [named?_cons, named?_cons, ih]
        cases hName : d.isNamed name with
        | false => rfl
        | true =>
            have hOther : c.isNamed name = false := by
              rw [Bool.eq_false_iff, ne_eq, isNamed_iff, ← isNamed_iff.mp hName]
              exact fun hSame => hd (isNamed_iff.mpr hSame.symm)
            simp [hOther]

/-- Registering a comment leaves every label as it was. -/
theorem label_of_mem_setComment {x : Column} (h : x ∈ TableChange.setComment c cs) :
    ∃ d ∈ cs, d.label = x.label := by
  induction cs with
  | nil => simp [TableChange.setComment] at h
  | cons d ds ih =>
      rw [TableChange.setComment] at h
      split at h
      next =>
        rcases List.mem_cons.mp h with rfl | h
        · exact ⟨d, List.mem_cons_self .., rfl⟩
        · exact ⟨x, List.mem_cons_of_mem _ h, rfl⟩
      next =>
        rcases List.mem_cons.mp h with rfl | h
        · exact ⟨x, List.mem_cons_self .., rfl⟩
        · obtain ⟨k, hk, hLabel⟩ := ih h
          exact ⟨k, List.mem_cons_of_mem _ hk, hLabel⟩

/-! ### Key columns -/

/-- A column that keeps its place in the key keeps the names of the key. -/
theorem foldedNames_key_putInto (hKey : c.isKey = (named? cs c.name).elim false isKey) :
    foldedNames ((Table.putInto c cs).filter (·.isKey)) = foldedNames (cs.filter (·.isKey)) := by
  induction cs with
  | nil => simp [Table.putInto, hKey]
  | cons d ds ih =>
      rw [named?_cons] at hKey
      rw [Table.putInto]
      split
      next hd =>
        have hSame : c.isKey = d.isKey := by rwa [if_pos hd] at hKey
        have hName : d.folded = c.folded := isNamed_iff.mp hd
        rw [List.filter_cons, List.filter_cons, hSame]
        split
        next => exact congrArg (· :: _) hName.symm
        next => rfl
      next hd =>
        rw [if_neg hd] at hKey
        rw [List.filter_cons, List.filter_cons]
        split
        next => exact congrArg (d.folded :: ·) (ih hKey)
        next => exact ih hKey

/-- Registering a comment leaves the names of the key as they were. -/
theorem foldedNames_key_setComment (c : Column) (cs : List Column) :
    foldedNames ((TableChange.setComment c cs).filter (·.isKey)) =
      foldedNames (cs.filter (·.isKey)) := by
  induction cs with
  | nil => rfl
  | cons d ds ih =>
      rw [TableChange.setComment]
      split
      next =>
        rw [List.filter_cons, List.filter_cons]
        split
        next => rfl
        next => rfl
      next =>
        rw [List.filter_cons, List.filter_cons]
        split
        next => exact congrArg (d.folded :: ·) ih
        next => exact ih

/-! ### Columns that others lack -/

/-- Columns with the name of one that others have are not among those that the others lack. -/
theorem not_lacking (hMem : c ∈ ts) {d : Column} (hSame : d.isNamed c.name = true) :
    (named? ts d.name).isNone = false := by
  rw [Option.isNone_eq_false_iff, Option.isSome_iff_ne_none, ne_eq, named?_eq_none_iff, not_not]
  change d.folded ∈ _
  rw [isNamed_iff.mp hSame]
  exact folded_mem hMem

/-- A column of the target that is registered was never one the target lacks. -/
theorem lacking_putInto (hMem : c ∈ ts) {d : Column} (hName : d.name = c.name) :
    lacking ts (Table.putInto d cs) = lacking ts cs :=
  Table.filter_putInto fun x hx => not_lacking hMem (by rwa [← hName])

/-- Registering a comment leaves the columns the target lacks as they were. -/
theorem lacking_setComment (hMem : c ∈ ts) :
    lacking ts (TableChange.setComment c cs) = lacking ts cs := by
  induction cs with
  | nil => rfl
  | cons d ds ih =>
      rw [TableChange.setComment]
      split
      next hd =>
        have hThere := not_lacking hMem hd
        simp [lacking, hThere]
      next =>
        simp only [lacking, List.filter_cons] at ih ⊢
        rw [ih]

/-- Columns that others lack get no place in the key of the others. -/
theorem lacking_keyed (hKey : ∀ c ∈ cs, c.isKey = false) :
    lacking ts (cs.map fun c => { c with isKey := ts.any fun t => t.isKey && t.isNamed c.name }) =
      lacking ts cs := by
  rw [lacking, List.filter_map]
  refine (List.map_congr_left fun c hc => ?_).trans (List.map_id _)
  obtain ⟨hMem, hLacks⟩ := List.mem_filter.mp hc
  have hNone : (ts.any fun t => t.isKey && t.isNamed c.name) = false := by
    refine List.any_eq_false.mpr fun t ht => ?_
    have hOther := List.find?_eq_none.mp (Option.isNone_iff_eq_none.mp hLacks) t ht
    simp only [Bool.not_eq_true] at hOther
    rw [hOther, Bool.and_false]
    exact Bool.false_ne_true
  rw [hNone, ← hKey c hMem]
  rfl

end Column

open Column (Apart Distinct foldedNames named? lacking)

namespace Table

variable {target k : Table}

/-- The table can be known where the target is planned: its names are distinct, and no property in
either table has the name of another column. -/
structure Compatible (target k : Table) : Prop where
  distinct : Distinct k.columns
  apart : Apart (k.columns ++ target.columns)

/-- Where no property has the name of another column, the merged table has the columns of the target
and then those that the target lacks. -/
theorem merged_eq_of_compatible (h : Compatible target k) :
    target.merged (some k) =
      { target with
        mappings := []
        columns := target.columns ++ lacking target.columns k.columns
        indexes := withUnknownIndexes target.indexes k.indexes } := by
  have hApart : Apart (target.columns ++ k.columns) := h.apart.of_subset (by simp)
  have hColumns := withUnknown_eq_of_apart (t := { target with mappings := [] }) hApart h.distinct
  rw [merged_eq]
  simp only [Option.elim_some, hColumns]

/-- Two known tables that lack the same columns and indexes of the target end as one table. -/
theorem merged_congr {k' : Table} (h : Compatible target k) (h' : Compatible target k')
    (hColumns : lacking target.columns k'.columns = lacking target.columns k.columns)
    (hIndexes : withUnknownIndexes target.indexes k'.indexes =
      withUnknownIndexes target.indexes k.indexes) :
    target.merged (some k') = target.merged (some k) := by
  rw [merged_eq_of_compatible h, merged_eq_of_compatible h', hColumns, hIndexes]

end Table

namespace TableChange

open Table (Compatible)

variable {target k : Table} {change : TableChange}

/-- The change is about a part of the target. -/
def Concerns (target : Table) : TableChange → Prop
  | column c | comment c => c ∈ target.columns
  | index i => i ∈ target.indexes
  | create | key => True

/-- A registered column answers under its own name, every other name as before. -/
theorem named?_apply_column (target k : Table) (c : Column) (name : String) :
    named? ((column c).apply target k).columns name =
      if c.isNamed name then some (c.keeping (named? k.columns c.name)) else named? k.columns name :=
  Table.named?_putInto (c.keeping (named? k.columns c.name)) k.columns name

/-- A registered comment replaces the comment of its column and of no other. -/
theorem named?_apply_comment (target k : Table) (c : Column) (name : String) :
    named? ((comment c).apply target k).columns name =
      if c.isNamed name then (named? k.columns name).map fun d => { d with comment := c.comment }
      else named? k.columns name :=
  Column.named?_setComment c k.columns name

/-- A step keeps the names of columns distinct. -/
theorem distinct_apply (hTarget : Distinct target.columns) (h : Distinct k.columns)
    (change : TableChange) : Distinct (change.apply target k).columns := by
  cases change with
  | create => exact Column.distinct_map (fun _ => rfl) hTarget
  | column c => exact Table.distinct_putInto h _
  | comment c => rwa [apply, Distinct, Column.foldedNames_setComment]
  | key => exact Column.distinct_map (fun _ => rfl) h
  | index i => exact h

/-- Every column of the known table keeps its name and its property, or has those of the target. -/
theorem label_of_mem_apply (hConcerns : change.Concerns target) {x : Column}
    (hx : x ∈ (change.apply target k).columns) :
    ∃ d ∈ k.columns ++ target.columns, d.label = x.label := by
  have hOld {d : Column} (hd : d ∈ k.columns) (hLabel : d.label = x.label) :
      ∃ d ∈ k.columns ++ target.columns, d.label = x.label :=
    ⟨d, List.mem_append_left _ hd, hLabel⟩
  cases change with
  | create =>
      obtain ⟨c, hc, rfl⟩ := List.mem_map.mp hx
      exact ⟨c, List.mem_append_right _ hc, rfl⟩
  | column c =>
      rcases Table.mem_putInto hx with rfl | hx
      · exact ⟨c, List.mem_append_right _ hConcerns, rfl⟩
      · exact hOld hx rfl
  | comment c =>
      obtain ⟨d, hd, hLabel⟩ := Column.label_of_mem_setComment hx
      exact hOld hd hLabel
  | key =>
      obtain ⟨d, hd, rfl⟩ := List.mem_map.mp hx
      exact hOld hd rfl
  | index i => exact hOld hx rfl

/-- A change about a column of the target leaves the known table compatible with it. -/
theorem compatible_apply (hTarget : Distinct target.columns) (hConcerns : change.Concerns target)
    (h : Compatible target k) : Compatible target (change.apply target k) where
  distinct := distinct_apply hTarget h.distinct change
  apart := h.apart.of_labels fun x hx => by
    rcases List.mem_append.mp hx with hx | hx
    · exact label_of_mem_apply hConcerns hx
    · exact ⟨x, List.mem_append_right _ hx, rfl⟩

/-- A created table is the target but for what other steps bring. -/
theorem compatible_create (hTarget : Distinct target.columns) (hApart : Apart target.columns)
    (k : Table) : Compatible target (create.apply target k) where
  distinct := Column.distinct_map (fun _ => rfl) hTarget
  apart := hApart.of_labels fun x hx => by
    rcases List.mem_append.mp hx with hx | hx
    · obtain ⟨c, hc, rfl⟩ := List.mem_map.mp hx
      exact ⟨c, hc, rfl⟩
    · exact ⟨x, hx, rfl⟩

/-- A step on a known table changes nothing in what is registered in the end. -/
theorem merged_apply (hTarget : Distinct target.columns) (hConcerns : change.Concerns target)
    (h : Compatible target k) (hCreate : change ≠ create) (hKey : change = key → k.key = []) :
    target.merged (some (change.apply target k)) = target.merged (some k) := by
  refine Table.merged_congr h (compatible_apply hTarget hConcerns h) ?_ ?_
  · cases change with
    | create => exact absurd rfl hCreate
    | column c => exact Column.lacking_putInto hConcerns rfl
    | comment c => exact Column.lacking_setComment hConcerns
    | key =>
        refine Column.lacking_keyed fun c hc => ?_
        simpa using List.filter_eq_nil_iff.mp (hKey rfl) c hc
    | index i => rfl
  · cases change with
    | create => exact absurd rfl hCreate
    | index i => exact Table.withUnknownIndexes_moved hConcerns k.indexes
    | _ => rfl

/-- A table that was created is registered as the target in the end. -/
theorem merged_create (hTarget : Distinct target.columns) (hApart : Apart target.columns)
    (k : Table) : target.merged (some (create.apply target k)) = target.merged none := by
  rw [Table.merged_eq_of_compatible (compatible_create hTarget hApart k)]
  have hNone : lacking target.columns (target.columns.map fun c => { c with comment := "" }) = [] := by
    refine List.filter_eq_nil_iff.mpr fun x hx => ?_
    obtain ⟨c, hc, rfl⟩ := List.mem_map.mp hx
    rw [Column.not_lacking hc (Column.isNamed_self c)]
    exact Bool.false_ne_true
  rw [apply, hNone, List.append_nil]
  rfl

/-- A step leaves the table where it is. -/
theorem address_apply (hCreate : change ≠ create) :
    (change.apply target k).name = k.name ∧ (change.apply target k).schema = k.schema := by
  cases change with
  | create => exact absurd rfl hCreate
  | _ => exact ⟨rfl, rfl⟩

end TableChange

end SqlMapper
