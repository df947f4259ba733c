import SqlMapper.Proofs.Schema.Lookup

/-! Declarations of primary keys. The columns that a declaration names are found as everywhere, by
their names or by the properties they map to; they are marked by their names alone, and the names of
a second declaration are compared with those of the key, one by one. -/
namespace SqlMapper

open Column (Distinct)

namespace Column

/-- The column in a table whose key has some names. -/
def marked (names : List String) (c : Column) : Column := if names.any c.isNamed then c.asKey else c

/-- Marking the key renames no column. -/
theorem isNamed_marked (names : List String) (c : Column) (name : String) :
    (c.marked names).isNamed name = c.isNamed name := by
  unfold marked
  split <;> rfl

/-- Marking the key leaves the names and aliases of a column. -/
theorem answersTo_marked (names : List String) (c : Column) (name : String) :
    (c.marked names).answersTo name = c.answersTo name := by
  unfold marked
  split <;> rfl

/-- A column that is listed is marked. -/
theorem marked_of_isNamed {names : List String} {c : Column} {name : String} (hName : name ∈ names)
    (h : c.isNamed name = true) : c.marked names = c.asKey :=
  if_pos (List.any_eq_true.mpr ⟨name, hName, h⟩)

end Column

namespace Table

/-- The table with the columns of some names as its key. -/
def marked (t : Table) (names : List String) : Table :=
  { t with columns := t.columns.map (Column.marked names) }

/-- The table that is left when a key has been declared or refused. -/
def afterSetKey (t : Table) (names : List String) : Table :=
  match t.setKey names with
  | .ok t' => t'
  | .error _ => t

def Finds (t : Table) (names : List String) : Prop := ∀ n ∈ names, ∃ c, t.find? n = some c

/-- Every name leads to a column, and these are the columns that they lead to. -/
def Denotes (t : Table) (names : List String) (columns : List Column) : Prop :=
  t.Finds names ∧ ∀ c, c ∈ columns ↔ ∃ n ∈ names, t.find? n = some c

/-- The columns that the names lead to are all named among them. -/
def NamesFound (t : Table) (names : List String) : Prop :=
  ∀ n ∈ names, ∀ c, t.find? n = some c → ∃ m ∈ names, c.isNamed m = true

/-- The columns of the key have been made required, and nothing else differs. -/
structure Keyed (t t' : Table) : Prop where
  rest : t' = { t with columns := t'.columns }
  columns : List.Forall₂ (fun c c' => c' = if c'.isKey then c.asKey else c) t.columns t'.columns

variable {t t' : Table} {names : List String}

theorem Keyed.refl (h : ∀ c ∈ t.key, c.nullable = false) : t.Keyed t where
  rest := rfl
  columns := by
    refine List.forall₂_same.mpr fun c hc => ?_
    split
    next hIsKey =>
      have hRequired := h c (List.mem_filter.mpr ⟨hc, hIsKey⟩)
      rw [Column.asKey, ← hIsKey, ← hRequired]
    next => rfl

/-! ### What is checked -/

/-- A declaration is checked for names alone: each must be found. -/
theorem checkDeclared_eq_ok_iff : t.checkDeclared names = .ok () ↔ t.Finds names := by
  induction names with
  | nil => simp [checkDeclared, Finds]
  | cons n names ih =>
      rw [checkDeclared, Finds, List.forall_mem_cons]
      cases hFind : t.find? n with
      | none => simp
      | some c => simpa [Finds] using ih

/-- A first declaration. -/
theorem setKey_eq_ok_iff_of_nil (hKey : t.key = []) :
    t.setKey names = .ok t' ↔ t.Finds names ∧ t' = t.marked names := by
  rw [← checkDeclared_eq_ok_iff, setKey, Result.bind_eq_ok_iff, hKey]
  constructor
  · rintro ⟨_, hFinds, hMarked⟩
    exact ⟨hFinds, (Except.ok.inj hMarked).symm⟩
  · rintro ⟨hFinds, rfl⟩
    exact ⟨(), hFinds, rfl⟩

/-- A further declaration. -/
theorem setKey_eq_ok_iff_of_ne_nil (hKey : t.key ≠ []) :
    t.setKey names = .ok t' ↔
      t.Finds names ∧ sameNames names t.keyNames = true ∧ t' = t := by
  have hSome : t.key.isEmpty = false := by simpa using hKey
  rw [← checkDeclared_eq_ok_iff, setKey, Result.bind_eq_ok_iff, hSome]
  cases hSame : sameNames names t.keyNames with
  | false => simp [throw, throwThe, MonadExceptOf.throw]
  | true =>
      constructor
      · rintro ⟨_, hFinds, hSelf⟩
        exact ⟨hFinds, rfl, (Except.ok.inj hSelf).symm⟩
      · rintro ⟨hFinds, -, rfl⟩
        exact ⟨(), hFinds, rfl⟩

/-! ### What is marked -/

/-- Columns are found by the same names after the key is marked. -/
theorem find?_marked (t : Table) (names : List String) (name : String) :
    (t.marked names).find? name = (t.find? name).map (Column.marked names) := by
  have hNamed : (fun c => (Column.marked names c).isNamed name) = (·.isNamed name) :=
    funext fun c => c.isNamed_marked names name
  have hAnswers : (fun c => (Column.marked names c).answersTo name) = (·.answersTo name) :=
    funext fun c => c.answersTo_marked names name
  simp only [find?, marked, List.find?_map, Function.comp_def, hNamed, hAnswers]
  cases t.columns.find? (·.isNamed name) <;> rfl

theorem not_isKey_of_nil (hKey : t.key = []) {c : Column} (hc : c ∈ t.columns) :
    ¬ c.isKey = true := by
  rw [key, List.filter_eq_nil_iff] at hKey
  exact hKey c hc

/-- Where there is no key, the marked columns become it. -/
theorem mem_key_marked_iff (hKey : t.key = []) {c' : Column} :
    c' ∈ (t.marked names).key ↔
      ∃ c ∈ t.columns, (∃ n ∈ names, c.isNamed n = true) ∧ c' = c.asKey := by
  simp only [key, marked, List.mem_filter, List.mem_map]
  constructor
  · rintro ⟨⟨c, hc, rfl⟩, hIsKey⟩
    unfold Column.marked at hIsKey ⊢
    split at hIsKey
    next hAny => exact ⟨c, hc, List.any_eq_true.mp hAny, if_pos hAny⟩
    next => exact absurd hIsKey (not_isKey_of_nil hKey hc)
  · rintro ⟨c, hc, ⟨n, hn, hNamed⟩, rfl⟩
    exact ⟨⟨c, hc, Column.marked_of_isNamed hn hNamed⟩, rfl⟩

/-- A first key is marked not null. -/
theorem required_marked (hKey : t.key = []) : ∀ c ∈ (t.marked names).key, c.nullable = false := by
  intro c' hc'
  obtain ⟨c, -, -, rfl⟩ := (mem_key_marked_iff hKey).mp hc'
  rfl

/-- A first declaration marks the key and changes nothing further. -/
theorem keyed_marked (hKey : t.key = []) : t.Keyed (t.marked names) where
  rest := rfl
  columns := by
    refine List.forall₂_map_right_iff.mpr (List.forall₂_same.mpr fun c hc => ?_)
    unfold Column.marked
    split
    next => rfl
    next => rw [if_neg (not_isKey_of_nil hKey hc)]

/-- If they are all named, the marked columns are those that the names lead to. -/
theorem denotes_marked (hDistinct : Distinct t.columns) (hKey : t.key = []) (hFinds : t.Finds names)
    (hNamed : t.NamesFound names) : (t.marked names).Denotes names (t.marked names).key := by
  refine ⟨fun n hn => ?_, fun c' => ?_⟩
  · obtain ⟨c, hFind⟩ := hFinds n hn
    exact ⟨c.marked names, by rw [find?_marked, hFind]; rfl⟩
  · simp only [mem_key_marked_iff hKey, find?_marked, Option.map_eq_some_iff]
    constructor
    · rintro ⟨c, hc, ⟨n, hn, hName⟩, rfl⟩
      exact ⟨n, hn, c, find?_of_isNamed hDistinct hc hName, Column.marked_of_isNamed hn hName⟩
    · rintro ⟨n, hn, c, hFind, rfl⟩
      obtain ⟨m, hm, hName⟩ := hNamed n hn c hFind
      exact ⟨c, mem_of_find? hFind, ⟨m, hm, hName⟩, Column.marked_of_isNamed hm hName⟩

/-! ### What is compared -/

/-- A name leads to the column of that name, if the column is named and no other name leads to it. -/
theorem isNamed_of_find? (hDistinct : Distinct t.columns) (hNamed : t.NamesFound names)
    (hOnce : (names.map t.find?).Nodup) {n : String} (hn : n ∈ names) {c : Column}
    (hFind : t.find? n = some c) : c.isNamed n = true := by
  obtain ⟨m, hm, hName⟩ := hNamed n hn c hFind
  have hSame : t.find? m = t.find? n :=
    (find?_of_isNamed hDistinct (mem_of_find? hFind) hName).trans hFind.symm
  rwa [List.inj_on_of_nodup_map hOnce hm hn hSame] at hName

/-- Names of columns that lead to different columns differ in more than letter case. -/
theorem nodup_of_find? (hDistinct : Distinct t.columns) (hOnce : (names.map t.find?).Nodup)
    (hColumns : ∀ n ∈ names, ∃ c ∈ t.columns, c.isNamed n = true) :
    (names.map Text.lowerCase).Nodup := by
  rw [List.Nodup, List.pairwise_map] at hOnce ⊢
  refine hOnce.imp_of_mem fun {n m} hn hm hApart hFolded => hApart ?_
  obtain ⟨c, hc, hName⟩ := hColumns n hn
  have hOther : c.isNamed m = true := by rwa [Column.isNamed_iff, ← hFolded, ← Column.isNamed_iff]
  rw [find?_of_isNamed hDistinct hc hName, find?_of_isNamed hDistinct hc hOther]

/-- Names that are those of the key lead to it, if no two of them lead to one column. -/
theorem denotes_of_sameNames (hDistinct : Distinct t.columns) (hOnce : (names.map t.find?).Nodup)
    (hFinds : t.Finds names) (hSame : sameNames names t.keyNames = true) :
    t.Denotes names t.key := by
  have hColumns : ∀ n ∈ names, ∃ c ∈ t.columns, c.isNamed n = true := by
    simp only [sameNames, Bool.and_eq_true, List.all_eq_true, List.any_eq_true] at hSame
    intro n hn
    obtain ⟨name, hName, hSameName⟩ := hSame.2 n hn
    obtain ⟨c, hc, rfl⟩ := List.mem_map.mp hName
    exact ⟨c, List.mem_of_mem_filter hc, hSameName⟩
  have hPerm := perm_of_sameNames hSame (nodup_of_find? hDistinct hOnce hColumns)
  rw [foldedNames_key] at hPerm
  refine ⟨hFinds, fun c => ⟨fun hc => ?_, ?_⟩⟩
  · obtain ⟨n, hn, hFolded⟩ := List.mem_map.mp (hPerm.symm.subset (Column.folded_mem hc))
    have hName := Column.isNamed_iff.mpr hFolded.symm
    exact ⟨n, hn, find?_of_isNamed hDistinct (List.mem_of_mem_filter hc) hName⟩
  · rintro ⟨n, hn, hFind⟩
    have hMem := hPerm.subset (List.mem_map_of_mem hn)
    obtain ⟨k, hk, hName⟩ := Column.mem_foldedNames_iff.mp hMem
    have hFound := find?_of_isNamed hDistinct (List.mem_of_mem_filter hk) hName
    obtain rfl : k = c := Option.some.inj (hFound.symm.trans hFind)
    exact hk

/-- Names that lead to the key are its names, if each of its columns is named once. -/
theorem sameNames_of_denotes (hDistinct : Distinct t.columns) (hNamed : t.NamesFound names)
    (hOnce : (names.map t.find?).Nodup) (h : t.Denotes names t.key) :
    sameNames names t.keyNames = true := by
  obtain ⟨hFinds, hKey⟩ := h
  have hOwn {n : String} (hn : n ∈ names) {c : Column} (hFind : t.find? n = some c) :
      c.isNamed n = true :=
    isNamed_of_find? hDistinct hNamed hOnce hn hFind
  have hColumns : ∀ n ∈ names, ∃ c ∈ t.columns, c.isNamed n = true := by
    intro n hn
    obtain ⟨c, hFind⟩ := hFinds n hn
    exact ⟨c, mem_of_find? hFind, hOwn hn hFind⟩
  have hNodup := nodup_of_find? hDistinct hOnce hColumns
  refine sameNames_of_perm ?_
  rw [foldedNames_key, List.perm_ext_iff_of_nodup hNodup (distinct_key hDistinct)]
  refine fun x => ⟨fun hx => ?_, fun hx => ?_⟩
  · obtain ⟨n, hn, rfl⟩ := List.mem_map.mp hx
    obtain ⟨c, hFind⟩ := hFinds n hn
    exact Column.mem_foldedNames_iff.mpr ⟨c, (hKey c).mpr ⟨n, hn, hFind⟩, hOwn hn hFind⟩
  · obtain ⟨c, hc, rfl⟩ := List.mem_map.mp hx
    obtain ⟨n, hn, hFind⟩ := (hKey c).mp hc
    exact List.mem_map.mpr ⟨n, hn, (Column.isNamed_iff.mp (hOwn hn hFind)).symm⟩

/-- What a declaration of a key does, if it names the columns that it leads to and, where there is a
key already, leads to none of them twice. The key is what the names lead to. A further declaration is
accepted if they lead to the key that there is. -/
theorem setKey_spec (hDistinct : Distinct t.columns) (hNamed : t.NamesFound names)
    (hOnce : t.key ≠ [] → (names.map t.find?).Nodup)
    (hRequired : ∀ c ∈ t.key, c.nullable = false) :
    (∀ t', t.setKey names = .ok t' →
      t'.Denotes names t'.key ∧ (∀ c ∈ t'.key, c.nullable = false) ∧ t.Keyed t') ∧
    (t.key = [] → ((∃ t', t.setKey names = .ok t') ↔ t.Finds names)) ∧
    (t.key ≠ [] → ((∃ t', t.setKey names = .ok t') ↔ t.Denotes names t.key)) ∧
    ∀ f, t.setKey names = .error f → t.afterSetKey names = t := by
  refine ⟨fun t' hOk => ?_, fun hNone => ?_, fun hSome => ?_, fun f hError => ?_⟩
  · by_cases hKey : t.key = []
    · obtain ⟨hFinds, rfl⟩ := (setKey_eq_ok_iff_of_nil hKey).mp hOk
      exact ⟨denotes_marked hDistinct hKey hFinds hNamed, required_marked hKey, keyed_marked hKey⟩
    · obtain ⟨hFinds, hSame, rfl⟩ := (setKey_eq_ok_iff_of_ne_nil hKey).mp hOk
      exact ⟨denotes_of_sameNames hDistinct (hOnce hKey) hFinds hSame, hRequired, Keyed.refl hRequired⟩
  · simp only [setKey_eq_ok_iff_of_nil hNone, exists_and_left, exists_eq, and_true]
  · simp only [setKey_eq_ok_iff_of_ne_nil hSome, exists_and_left, exists_eq, and_true]
    refine ⟨fun ⟨hFinds, hSame⟩ => ?_, fun hDenotes => ⟨hDenotes.1, ?_⟩⟩
    · exact denotes_of_sameNames hDistinct (hOnce hSome) hFinds hSame
    · exact sameNames_of_denotes hDistinct hNamed (hOnce hSome) hDenotes
  · rw [afterSetKey, hError]

/-- Two of three columns, one of them also by the property that it maps to, and then both of them
again. -/
theorem setKey_spec_twice :
    let t : Table := { name := "grades", columns := [
      { Column.ofTy "Course" .text with mappedTo := "subject" },
      .ofTy "mark" (.integer .int32), .ofTy "student" (.integer .int64)] }
    let names := ["STUDENT", "subject", "course"]
    let again := ["COURSE", "student"]
    Distinct t.columns ∧ t.NamesFound names ∧
      ∃ t', t.setKey names = .ok t' ∧ t'.keyNames = ["Course", "student"] ∧
        t'.Denotes names t'.key ∧ (∀ c ∈ t'.key, c.nullable = false) ∧ t.Keyed t' ∧
        t'.NamesFound again ∧ (again.map t'.find?).Nodup ∧ t'.setKey again = .ok t' ∧
        t'.Denotes again t'.key := by
  intro t names again
  let t' : Table := { t with columns := [
    { Column.ofTy "Course" .text with mappedTo := "subject", isKey := true, nullable := false },
    .ofTy "mark" (.integer .int32), (Column.ofTy "student" (.integer .int64)).asKey] }
  have hDistinct : Distinct t.columns := distinct_of_validate (t := t) rfl
  have hKey : t.key = [] := rfl
  have hNamed : t.NamesFound names := by
    simp only [NamesFound, names, List.forall_mem_cons]
    refine ⟨fun c hFind => ?_, fun c hFind => ?_, fun c hFind => ?_, by simp⟩
    · obtain rfl := Option.some.inj hFind
      exact ⟨"STUDENT", by simp, by decide⟩
    · obtain rfl := Option.some.inj hFind
      exact ⟨"course", by simp, by decide⟩
    · obtain rfl := Option.some.inj hFind
      exact ⟨"course", by simp, by decide⟩
  obtain ⟨hOk, -⟩ := setKey_spec hDistinct hNamed (absurd hKey) (by simp [hKey])
  obtain ⟨hDenotes, hRequired, hKeyed⟩ := hOk t' rfl
  have hNamed' : t'.NamesFound again := by
    simp only [NamesFound, again, List.forall_mem_cons]
    refine ⟨fun c hFind => ?_, fun c hFind => ?_, by simp⟩
    · obtain rfl := Option.some.inj hFind
      exact ⟨"COURSE", by simp, by decide⟩
    · obtain rfl := Option.some.inj hFind
      exact ⟨"student", by simp, by decide⟩
  have hOnce : (again.map t'.find?).Nodup := by
    have hNames : ((again.map t'.find?).map (Option.map Column.name)).Nodup := by decide
    exact hNames.of_map _
  obtain ⟨hOk', -⟩ :=
    setKey_spec (distinct_of_validate (t := t') rfl) hNamed' (fun _ => hOnce) hRequired
  exact ⟨hDistinct, hNamed, t', rfl, by decide, hDenotes, hRequired, hKeyed, hNamed', hOnce, rfl,
    (hOk' t' rfl).1⟩

/-- A name that is not the column's own, names that lead to one column, and a key of a column that was
not made required. -/
theorem setKey_misled :
    let a := Column.ofTy "a" (.integer .int32)
    let b := Column.ofTy "b" (.integer .int32)
    let aliased : Table := { name := "t", columns := [{ a with mappedTo := "p" }, b] }
    let single : Table := { name := "t", columns := [a.asKey, b] }
    let pair : Table := { name := "t", columns := [a.asKey, b.asKey] }
    let loose : Table := { name := "t", columns := [{ a with isKey := true }] }
    let found (t : Table) (names : List String) := names.map fun n => (t.find? n).map Column.name
    let declared (t : Table) (names : List String) := (t.setKey names).toOption.map keyNames
    (found aliased ["p"] = [some "a"] ∧ declared aliased ["p"] = some []) ∧
    (found single ["a", "A"] = [some "a", some "a"] ∧ single.keyNames = ["a"] ∧
      declared single ["a", "A"] = none) ∧
    (found pair ["a", "A"] = [some "a", some "a"] ∧ pair.keyNames = ["a", "b"] ∧
      declared pair ["a", "A"] = some ["a", "b"]) ∧
    ((loose.setKey ["a"]).toOption.map fun t => t.key.map Column.nullable) = some [true] := by
  intro a b aliased single pair loose found declared
  decide

end Table

end SqlMapper
