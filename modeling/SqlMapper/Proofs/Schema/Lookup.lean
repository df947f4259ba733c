import Mathlib.Data.List.Nodup
import Mathlib.Data.List.Perm.Subperm
import SqlMapper.Proofs.Result
import SqlMapper.Schema.Table

/-! Columns and their names. Names are compared in one letter case, in which the columns of a valid
table are distinct. A table that is searched for a name prefers columns of that name, and where no
column asks for a property of another column's name it finds no others. -/
namespace SqlMapper

namespace Column

/-- The name in the one letter case in which names are compared. -/
def folded (c : Column) : String := Text.lowerCase c.name

/-- The names of several columns in that letter case. -/
def foldedNames (cs : List Column) : List String := cs.map folded

/-- No two of the columns have one name. -/
def Distinct (cs : List Column) : Prop := (foldedNames cs).Nodup

/-- No column asks for a property that has the name of another column. -/
def Apart (cs : List Column) : Prop :=
  ∀ a ∈ cs, ∀ b ∈ cs, a.mappedTo.isEmpty = false → a.mappedTo = b.name → a.isNamed b.name = true

def named? (cs : List Column) (name : String) : Option Column := cs.find? (·.isNamed name)

/-- Those of some columns whose names other columns lack. -/
def lacking (cs : List Column) : List Column → List Column :=
  List.filter fun k => (named? cs k.name).isNone

/-- Those of some columns whose names other columns have too. -/
def sharing (cs : List Column) : List Column → List Column :=
  List.filter fun k => (named? cs k.name).isSome

theorem isNamed_iff {c : Column} {name : String} :
    c.isNamed name = true ↔ c.folded = Text.lowerCase name :=
  Text.sameName_iff

@[simp] theorem isNamed_self (c : Column) : c.isNamed c.name = true := Text.sameName_self c.name

theorem isNamed_comm (a b : Column) : a.isNamed b.name = b.isNamed a.name :=
  Text.sameName_comm a.name b.name

theorem mem_foldedNames_iff {cs : List Column} {name : String} :
    Text.lowerCase name ∈ foldedNames cs ↔ ∃ c ∈ cs, c.isNamed name = true := by
  simp only [foldedNames, List.mem_map, isNamed_iff]

theorem folded_mem {cs : List Column} {c : Column} (h : c ∈ cs) : c.folded ∈ foldedNames cs :=
  List.mem_map_of_mem h

/-- A column whose name others lack has the name of none of them. -/
theorem not_isNamed_of_mem {cs : List Column} {c x : Column} (hNew : c.folded ∉ foldedNames cs)
    (hx : x ∈ cs) : c.isNamed x.name = false := by
  rw [Bool.eq_false_iff, ne_eq, isNamed_iff]
  exact fun hSame => hNew (List.mem_map.mpr ⟨x, hx, hSame.symm⟩)

/-- A column with a new name leaves the names distinct. -/
theorem distinct_concat {cs : List Column} (h : Distinct cs) {c : Column}
    (hNew : c.folded ∉ foldedNames cs) : Distinct (cs ++ [c]) := by
  have hSwapped : ([c.folded] ++ foldedNames cs).Nodup := List.nodup_cons.mpr ⟨hNew, h⟩
  simpa [Distinct, foldedNames] using List.nodup_append_comm.mp hSwapped

@[simp] theorem named?_nil (name : String) : named? [] name = none := rfl

theorem named?_cons (c : Column) (cs : List Column) (name : String) :
    named? (c :: cs) name = if c.isNamed name then some c else named? cs name := by
  rw [named?, List.find?_cons]
  cases c.isNamed name <;> rfl

theorem named?_append (cs ds : List Column) (name : String) :
    named? (cs ++ ds) name = (named? cs name).or (named? ds name) :=
  List.find?_append

theorem mem_of_named? {cs : List Column} {name : String} {c : Column} (h : named? cs name = some c) :
    c ∈ cs :=
  List.mem_of_find?_eq_some h

theorem isNamed_of_named? {cs : List Column} {name : String} {c : Column}
    (h : named? cs name = some c) : c.isNamed name = true :=
  List.find?_some (p := fun d : Column => d.isNamed name) h

/-- No column has the name exactly when it is none of the folded names. -/
theorem named?_eq_none_iff {cs : List Column} {name : String} :
    named? cs name = none ↔ Text.lowerCase name ∉ foldedNames cs := by
  rw [mem_foldedNames_iff, named?, List.find?_eq_none]
  simp

/-- Among distinct columns a name is that of one. -/
theorem Distinct.eq_of_isNamed {cs : List Column} (h : Distinct cs) {c d : Column} (hc : c ∈ cs)
    (hd : d ∈ cs) (hNamed : d.isNamed c.name = true) : d = c :=
  List.inj_on_of_nodup_map h hd hc (isNamed_iff.mp hNamed)

/-- A column that has its name for itself is found under it in any letter case. -/
theorem named?_of_isNamed {cs : List Column} (hDistinct : Distinct cs) {c : Column} (hMem : c ∈ cs)
    {name : String} (h : c.isNamed name = true) : named? cs name = some c := by
  cases hFound : named? cs name with
  | none => exact absurd (mem_foldedNames_iff.mpr ⟨c, hMem, h⟩) (named?_eq_none_iff.mp hFound)
  | some d =>
      have hFolded : d.folded = c.folded :=
        (isNamed_iff.mp (isNamed_of_named? hFound)).trans (isNamed_iff.mp h).symm
      rw [List.inj_on_of_nodup_map hDistinct (mem_of_named? hFound) hMem hFolded]

/-- Among distinct columns each is found by its own name. -/
theorem named?_self {cs : List Column} (hDistinct : Distinct cs) {c : Column} (hMem : c ∈ cs) :
    named? cs c.name = some c :=
  named?_of_isNamed hDistinct hMem c.isNamed_self

/-- What changes no name changes no search but in what is found. -/
theorem named?_map {f : Column → Column} (hName : ∀ c, (f c).name = c.name) (cs : List Column)
    (name : String) : named? (cs.map f) name = (named? cs name).map f := by
  rw [named?, List.find?_map, named?]
  congr 2
  funext c
  simp [isNamed, hName]

/-! ### Names and properties -/

/-- A column's name and the property it asks for, which are all that a search looks at. -/
def label (c : Column) : String × String := (c.name, c.mappedTo)

/-- Whether aliases stay apart is a matter of the labels. -/
theorem Apart.of_labels {cs ds : List Column} (h : Apart ds)
    (hLabels : ∀ c ∈ cs, ∃ d ∈ ds, d.label = c.label) : Apart cs := by
  intro a ha b hb hAsks hEq
  obtain ⟨a', ha', hLabelA⟩ := hLabels a ha
  obtain ⟨b', hb', hLabelB⟩ := hLabels b hb
  simp only [label, Prod.mk.injEq] at hLabelA hLabelB
  have hNamed := h a' ha' b' hb' (by rw [hLabelA.2, hAsks]) (by rw [hLabelA.2, hLabelB.1, hEq])
  simpa only [isNamed, hLabelA.1, hLabelB.1] using hNamed

theorem Apart.of_subset {cs ds : List Column} (h : Apart ds) (hSubset : cs ⊆ ds) : Apart cs :=
  h.of_labels fun c hc => ⟨c, hSubset hc, rfl⟩

end Column

namespace Table

open Column

/-! ### Searching -/

theorem mem_of_find? {t : Table} {name : String} {c : Column} (h : t.find? name = some c) :
    c ∈ t.columns := by
  rw [find?] at h
  cases hNamed : t.columns.find? (·.isNamed name) with
  | some k =>
      rw [hNamed] at h
      obtain rfl := Option.some.inj h
      exact List.mem_of_find?_eq_some hNamed
  | none =>
      rw [hNamed] at h
      exact List.mem_of_find?_eq_some h

/-- Nothing is found when no column answers to the name. -/
theorem find?_eq_none_iff {t : Table} {name : String} :
    t.find? name = none ↔ ∀ c ∈ t.columns, c.answersTo name = false := by
  have hNamed (c : Column) (h : c.isNamed name = true) : c.answersTo name = true := by
    simp [answersTo, h]
  cases hFound : t.columns.find? (·.isNamed name) with
  | some c =>
      rw [find?, hFound]
      simp only [Option.orElse_some, reduceCtorEq, false_iff, not_forall, exists_prop]
      exact ⟨c, List.mem_of_find?_eq_some hFound,
        by simp [hNamed c (List.find?_some (p := fun d : Column => d.isNamed name) hFound)]⟩
  | none =>
      rw [find?, hFound, Option.orElse_none, List.find?_eq_none]
      simp

/-- A column of that very name is preferred to an alias. -/
theorem find?_eq_named? {t : Table} {name : String} {c : Column}
    (h : named? t.columns name = some c) : t.find? name = some c := by
  rw [named?] at h
  rw [find?, h]
  rfl

/-- Among distinct columns each is found by any spelling of its name. -/
theorem find?_of_isNamed {t : Table} (hDistinct : Distinct t.columns) {c : Column}
    (hc : c ∈ t.columns) {name : String} (h : c.isNamed name = true) : t.find? name = some c :=
  find?_eq_named? (named?_of_isNamed hDistinct hc h)

/-- A search finds no more than the columns of the name, where no column of another name asks for the
property of the name. -/
theorem find?_eq_of_unasked {t : Table} {name : String}
    (hUnasked : ∀ k ∈ t.columns, k.property = name → k.isNamed name = true) :
    t.find? name = named? t.columns name := by
  cases hFound : named? t.columns name with
  | some d => exact find?_eq_named? hFound
  | none =>
      have hAnswers : t.columns.find? (·.answersTo name) = none := by
        rw [List.find?_eq_none]
        intro k hk
        have hName : k.isNamed name = false := by
          simpa using List.find?_eq_none.mp hFound k hk
        simp only [answersTo, hName, Bool.false_or, Bool.and_eq_true, Bool.not_eq_true',
          beq_iff_eq, not_and]
        intro hAsks hEq
        have hProperty : k.property = name := by rw [property, hAsks, if_neg (by simp), hEq]
        simp [hUnasked k hk hProperty] at hName
      rw [named?] at hFound
      rw [find?, hFound, hAnswers]
      rfl

/-- Where aliases stay apart from names, a column is found by name alone. -/
theorem find?_eq_of_apart {t : Table} {cs : List Column} (hApart : Apart cs) (hSubset : t.columns ⊆ cs)
    {c : Column} (hMem : c ∈ cs) : t.find? c.name = named? t.columns c.name := by
  refine find?_eq_of_unasked fun k hk hProperty => ?_
  rw [property] at hProperty
  split at hProperty
  next => simp [← hProperty]
  next hAsks => exact hApart k (hSubset hk) c hMem (by simpa using hAsks) hProperty

/-! ### Putting -/

/-- A column that is put answers under its own name, every other name as before. -/
theorem named?_putInto (c : Column) (cs : List Column) (name : String) :
    named? (putInto c cs) name = if c.isNamed name then some c else named? cs name := by
  induction cs with
  | nil => rw [putInto, named?_cons]
  | cons d ds ih =>
      rw [putInto]
      split
      next hd =>
        have hSame : d.isNamed name = c.isNamed name := by
          rw [Bool.eq_iff_iff, isNamed_iff, isNamed_iff, isNamed_iff.mp hd, folded]
        simp only [named?_cons, hSame]
        split <;> rfl
      next hd =>
        rw [named?_cons, ih, named?_cons]
        by_cases hc : c.isNamed name = true
        · have hOther : ¬ d.isNamed name = true := by
            intro hBoth
            exact hd (isNamed_iff.mpr ((isNamed_iff.mp hBoth).trans (isNamed_iff.mp hc).symm))
          rw [if_neg hOther, if_pos hc, if_pos hc]
        · rw [if_neg hc, if_neg hc]

/-- A put column replaces the one of its name, or comes last. -/
theorem foldedNames_putInto (c : Column) (cs : List Column) :
    foldedNames (putInto c cs) =
      if c.folded ∈ foldedNames cs then foldedNames cs else foldedNames cs ++ [c.folded] := by
  induction cs with
  | nil => rfl
  | cons d ds ih =>
      rw [putInto]
      split
      next hd =>
        have hSame : d.folded = c.folded := isNamed_iff.mp hd
        rw [if_pos (by rw [← hSame]; exact folded_mem (List.mem_cons_self ..))]
        simp [foldedNames, hSame]
      next hd =>
        have hOther : ¬ c.folded = d.folded := fun h => hd (isNamed_iff.mpr h.symm)
        have hMem : c.folded ∈ foldedNames (d :: ds) ↔ c.folded ∈ foldedNames ds := by
          simp [foldedNames, hOther]
        change d.folded :: foldedNames (putInto c ds) = _
        rw [ih]
        simp only [hMem]
        split <;> rfl

/-- Putting a column keeps the names distinct. -/
theorem distinct_putInto {cs : List Column} (h : Distinct cs) (c : Column) :
    Distinct (putInto c cs) := by
  rw [Distinct, foldedNames_putInto]
  split
  next => exact h
  next hNew => simpa [Distinct, foldedNames] using distinct_concat h hNew

theorem mem_putInto {c x : Column} {cs : List Column} (h : x ∈ putInto c cs) : x = c ∨ x ∈ cs := by
  induction cs with
  | nil => exact .inl (List.mem_singleton.mp h)
  | cons d ds ih =>
      rw [putInto] at h
      split at h
      next =>
        rcases List.mem_cons.mp h with rfl | h
        · exact .inl rfl
        · exact .inr (List.mem_cons_of_mem _ h)
      next =>
        rcases List.mem_cons.mp h with rfl | h
        · exact .inr (List.mem_cons_self ..)
        · exact (ih h).imp_right (List.mem_cons_of_mem _)

/-- Columns that do not have the name stay as they are, and in order. -/
theorem filter_putInto {p : Column → Bool} {c : Column} {cs : List Column}
    (hNamed : ∀ d : Column, d.isNamed c.name = true → p d = false) :
    (putInto c cs).filter p = cs.filter p := by
  have hc : p c = false := hNamed c (isNamed_self c)
  induction cs with
  | nil => simp [putInto, hc]
  | cons d ds ih =>
      rw [putInto]
      split
      next hd => simp [hc, hNamed d hd]
      next => rw [List.filter_cons, ih, List.filter_cons]

/-! ### Validity -/

/-- Valid columns have distinct names, none seen before, and a key that is not null. -/
theorem validateColumns_eq_ok {table : String} {seen cs : List Column}
    (h : validateColumns table seen cs = .ok ()) :
    (∀ c ∈ cs, ∀ d ∈ seen, d.isNamed c.name = false) ∧ Distinct cs ∧
      ∀ c ∈ cs, c.isKey = true → c.nullable = false := by
  induction cs generalizing seen with
  | nil => exact ⟨by simp, List.nodup_nil, by simp⟩
  | cons c cs ih =>
      simp only [validateColumns] at h
      split at h
      next => simp at h
      next hSeen =>
        split at h
        next => simp at h
        next hKey =>
          obtain ⟨hFresh, hDistinct, hKeys⟩ := ih h
          refine ⟨?_, ?_, ?_⟩
          · intro x hx d hd
            rcases List.mem_cons.mp hx with rfl | hx
            · simp only [List.any_eq_true, not_exists, not_and, Bool.not_eq_true] at hSeen
              exact hSeen d hd
            · exact hFresh x hx d (List.mem_cons_of_mem _ hd)
          · refine List.nodup_cons.mpr ⟨fun hMem => ?_, hDistinct⟩
            obtain ⟨x, hx, hSame⟩ := List.mem_map.mp hMem
            have hNot := hFresh x hx c (List.mem_cons_self ..)
            rw [isNamed_comm] at hNot
            exact absurd (isNamed_iff.mpr hSame) (by rw [hNot]; simp)
          · intro x hx hIsKey
            rcases List.mem_cons.mp hx with rfl | hx
            · simpa [hIsKey] using hKey
            · exact hKeys x hx hIsKey

/-- The columns of a valid table have distinct names. -/
theorem distinct_of_validate {t : Table} (h : t.validate = .ok ()) : Distinct t.columns := by
  simp only [validate, Result.bind_eq_ok_iff] at h
  obtain ⟨_, hColumns, -⟩ := h
  exact (validateColumns_eq_ok hColumns).2.1

/-- The key columns of a valid table are not null. -/
theorem not_nullable_of_validate {t : Table} (h : t.validate = .ok ()) {c : Column}
    (hMem : c ∈ t.columns) (hKey : c.isKey = true) : c.nullable = false := by
  simp only [validate, Result.bind_eq_ok_iff] at h
  obtain ⟨_, hColumns, -⟩ := h
  exact (validateColumns_eq_ok hColumns).2.2 c hMem hKey

/-! ### Keys -/

theorem foldedNames_key (t : Table) : t.keyNames.map Text.lowerCase = foldedNames t.key := by
  simp [keyNames, foldedNames, folded]

/-- The key columns of a table with distinct names have distinct names. -/
theorem distinct_key {t : Table} (h : Distinct t.columns) : Distinct t.key :=
  h.sublist (List.filter_sublist.map folded)

/-- Distinct names that are those of another list are a permutation of it. -/
theorem perm_of_sameNames {names others : List String} (h : sameNames names others = true)
    (hDistinct : (names.map Text.lowerCase).Nodup) :
    (names.map Text.lowerCase).Perm (others.map Text.lowerCase) := by
  simp only [sameNames, Bool.and_eq_true, beq_iff_eq, List.all_eq_true, List.any_eq_true] at h
  obtain ⟨hLength, hAll⟩ := h
  have hSubset : names.map Text.lowerCase ⊆ others.map Text.lowerCase := by
    intro x hx
    obtain ⟨n, hn, rfl⟩ := List.mem_map.mp hx
    obtain ⟨m, hm, hSame⟩ := hAll n hn
    exact List.mem_map.mpr ⟨m, hm, Text.sameName_iff.mp hSame⟩
  exact (hDistinct.subperm hSubset).perm_of_length_le (by simp [hLength])

/-- Two tables whose key names are the same have one key. -/
theorem perm_key_of_sameNames {t u : Table} (h : sameNames t.keyNames u.keyNames = true)
    (hDistinct : Distinct t.columns) : (foldedNames t.key).Perm (foldedNames u.key) := by
  rw [← foldedNames_key, ← foldedNames_key]
  refine perm_of_sameNames h ?_
  rw [foldedNames_key]
  exact distinct_key hDistinct

/-- The same names in another order are the same set of names. -/
theorem sameNames_of_perm {names others : List String}
    (h : (names.map Text.lowerCase).Perm (others.map Text.lowerCase)) :
    sameNames names others = true := by
  have hLength : others.length = names.length := by simpa using h.length_eq.symm
  simp only [sameNames, hLength, beq_self_eq_true, Bool.true_and, List.all_eq_true,
    List.any_eq_true]
  intro n hn
  obtain ⟨m, hm, hSame⟩ := List.mem_map.mp (h.subset (List.mem_map_of_mem hn))
  exact ⟨m, hm, Text.sameName_iff.mpr hSame⟩

end Table

end SqlMapper
