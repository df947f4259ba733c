import SqlMapper.Proofs.Schema.Lookup

/-! What the check of a table asks for: column names are distinct, no key column is nullable, and
every name in an index is one that a column answers to. -/
namespace SqlMapper

namespace Column

/-- The columns can be those of a valid table. -/
structure Sound (cs : List Column) : Prop where
  distinct : Distinct cs
  keys : ∀ c ∈ cs, c.isKey = true → c.nullable = false

/-- Which names a column answers to lies in its name and its property. -/
theorem answersTo_congr {c d : Column} (h : c.label = d.label) (name : String) :
    c.answersTo name = d.answersTo name := by
  simp only [label, Prod.mk.injEq] at h
  simp only [answersTo, isNamed, h.1, h.2]

theorem answersTo_of_isNamed {c : Column} {name : String} (h : c.isNamed name = true) :
    c.answersTo name = true := by
  rw [answersTo, h, Bool.true_or]

end Column

namespace Table

open Column (Distinct Sound)

theorem answersTo_of_find? {t : Table} {name : String} {c : Column} (h : t.find? name = some c) :
    c.answersTo name = true := by
  rw [find?, Option.orElse_eq_or] at h
  rcases Option.or_eq_some_iff.mp h with hNamed | ⟨-, hAnswers⟩
  · exact Column.answersTo_of_isNamed (Column.isNamed_of_named? hNamed)
  · exact List.find?_some (p := fun d : Column => d.answersTo name) hAnswers

/-- What is found answers to the name. -/
theorem exists_answers_of_find?_ne_none {t : Table} {name : String} (h : t.find? name ≠ none) :
    ∃ c ∈ t.columns, c.answersTo name = true := by
  obtain ⟨c, hFound⟩ := Option.ne_none_iff_exists'.mp h
  exact ⟨c, mem_of_find? hFound, answersTo_of_find? hFound⟩

/-- Sound columns that were not seen before are valid. -/
theorem validateColumns_of_sound {table : String} {seen cs : List Column} (h : Sound cs)
    (hFresh : ∀ c ∈ cs, ∀ d ∈ seen, d.isNamed c.name = false) :
    validateColumns table seen cs = .ok () := by
  induction cs generalizing seen with
  | nil => rfl
  | cons c cs ih =>
      obtain ⟨hNew, hDistinct⟩ := List.nodup_cons.mp h.distinct
      have hSeen : seen.any (·.isNamed c.name) = false :=
        List.any_eq_false.mpr fun d hd => by simp [hFresh c (List.mem_cons_self ..) d hd]
      have hKey : (c.isKey && c.nullable) = false := by
        cases hIsKey : c.isKey with
        | false => rfl
        | true => rw [h.keys c (List.mem_cons_self ..) hIsKey, Bool.and_false]
      rw [validateColumns, hSeen, hKey]
      refine ih ⟨hDistinct, fun d hd => h.keys d (List.mem_cons_of_mem _ hd)⟩ fun x hx d hd => ?_
      rcases List.mem_cons.mp hd with rfl | hd
      · exact Column.not_isNamed_of_mem hNew hx
      · exact hFresh x (List.mem_cons_of_mem _ hx) d hd

/-- The check of the columns accepts the sound lists. -/
theorem validateColumns_eq_ok_iff (table : String) {cs : List Column} :
    validateColumns table [] cs = .ok () ↔ Sound cs := by
  constructor
  · intro h
    obtain ⟨-, hDistinct, hKeys⟩ := validateColumns_eq_ok h
    exact ⟨hDistinct, hKeys⟩
  · intro h
    exact validateColumns_of_sound h fun _ _ d hd => absurd hd List.not_mem_nil

/-- The names in the indexes of a table. -/
def indexNames (t : Table) : List String := t.indexes.flatMap fun i => i.columns.map Prod.fst

/-- The names of the indexes are those their columns go by. -/
theorem mem_indexNames_iff {t : Table} {name : String} :
    name ∈ t.indexNames ↔ ∃ i ∈ t.indexes, name ∈ i.columns.map Prod.fst :=
  List.mem_flatMap

/-- The check of the names accepts those some column answers to. -/
theorem validateNames_eq_ok_iff {t : Table} {names : List String} :
    t.validateNames names = .ok () ↔ ∀ n ∈ names, ∃ c ∈ t.columns, c.answersTo n = true := by
  induction names with
  | nil => simp [validateNames]
  | cons n names ih =>
      rw [List.forall_mem_cons, ← ih, validateNames, column]
      cases hFound : t.find? n with
      | none =>
          have hNone := find?_eq_none_iff.mp hFound
          simpa using fun c hc hAnswers => absurd hAnswers (by simp [hNone c hc])
      | some c =>
          have hSome : ∃ c ∈ t.columns, c.answersTo n = true :=
            exists_answers_of_find?_ne_none (by simp [hFound])
          simp [hSome]

/-- A table is valid when its columns are sound and its indexes name some of them. -/
theorem validate_eq_ok_iff {t : Table} :
    t.validate = .ok () ↔ Sound t.columns ∧
      ∀ n ∈ t.indexNames, ∃ c ∈ t.columns, c.answersTo n = true := by
  rw [validate, Result.bind_eq_ok_iff, ← validateColumns_eq_ok_iff t.name,
    ← validateNames_eq_ok_iff]
  constructor
  · rintro ⟨_, hColumns, hNames⟩
    exact ⟨hColumns, hNames⟩
  · rintro ⟨hColumns, hNames⟩
    exact ⟨(), hColumns, hNames⟩

end Table

end SqlMapper
