import SqlMapper.Proofs.Schema.Lookup

/-! Mappings between columns and properties. In a table with distinct names each column leads to the
property that it was resolved to, whatever the letter case it is asked for in. -/
namespace SqlMapper.Mapping

open Column (Distinct)

variable {properties : List String} {entity table : String} {columns : List Column}

/-- A property that is found is one of those declared. -/
theorem mem_of_property? {wanted p : String} (h : property? properties wanted = some p) :
    p ∈ properties := by
  rw [property?] at h
  cases hExact : properties.find? (· == wanted) with
  | some q =>
      rw [hExact] at h
      obtain rfl := Option.some.inj h
      exact List.mem_of_find?_eq_some hExact
  | none =>
      rw [hExact] at h
      exact List.mem_of_find?_eq_some h

/-- The mapping lists the columns whose property is declared. -/
theorem mem_entries_resolve_iff {name p : String} :
    (name, p) ∈ (resolve entity properties table columns).entries ↔
      ∃ c ∈ columns, c.name = name ∧ property? properties c.property = some p := by
  simp [resolve, List.mem_filterMap, Option.map_eq_some_iff, and_comm]

/-- Where names are distinct, an entry under the name of a column is that of the column. -/
theorem property?_of_mem_entries (hDistinct : Distinct columns) {c : Column} (hc : c ∈ columns)
    {name p : String} (h : (name, p) ∈ (resolve entity properties table columns).entries)
    (hSame : Text.sameName name c.name = true) : property? properties c.property = some p := by
  obtain ⟨d, hd, rfl, hProperty⟩ := mem_entries_resolve_iff.mp h
  rwa [hDistinct.eq_of_isNamed hc hd hSame] at hProperty

/-- Among distinct columns the mapping finds the property of each. -/
theorem propertyOf?_resolve (hDistinct : Distinct columns) {c : Column} (hc : c ∈ columns) :
    (resolve entity properties table columns).propertyOf? c.name = property? properties c.property := by
  rw [propertyOf?]
  cases hEntry : (resolve entity properties table columns).entries.find?
      fun entry => Text.sameName entry.1 c.name with
  | some entry =>
      obtain ⟨name, p⟩ := entry
      have hMem := List.mem_of_find?_eq_some hEntry
      have hSame : Text.sameName name c.name = true := by simpa using List.find?_some hEntry
      rw [property?_of_mem_entries hDistinct hc hMem hSame]
      rfl
  | none =>
      cases hProperty : property? properties c.property with
      | none => rfl
      | some p =>
          have hMem : (c.name, p) ∈ (resolve entity properties table columns).entries :=
            mem_entries_resolve_iff.mpr ⟨c, hc, rfl, hProperty⟩
          have hNot := List.find?_eq_none.mp hEntry _ hMem
          dsimp only at hNot
          exact absurd (Text.sameName_self c.name) hNot

/-- A column maps to a property exactly when the mapping lists the two together. -/
theorem propertyOf?_eq_some_iff (hDistinct : Distinct columns) {c : Column} (hc : c ∈ columns)
    {p : String} : (resolve entity properties table columns).propertyOf? c.name = some p ↔
      (c.name, p) ∈ (resolve entity properties table columns).entries := by
  rw [propertyOf?_resolve hDistinct hc]
  constructor
  · intro hProperty
    exact mem_entries_resolve_iff.mpr ⟨c, hc, rfl, hProperty⟩
  · intro hEntry
    exact property?_of_mem_entries hDistinct hc hEntry (Text.sameName_self c.name)

end SqlMapper.Mapping
