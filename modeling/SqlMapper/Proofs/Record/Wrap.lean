import SqlMapper.Proofs.Result
import SqlMapper.Record.Entity

/-! Records of rows. A cell that is mapped sets one property and leaves the others, so a row whose
mapped cells tell of a record gives back the properties that some cell is mapped to. -/
namespace SqlMapper

/-! ### Fields -/

namespace Fields

variable {name : String} {ps : List Property} {t : Ty}

/-- The type and the value of the first property of a name. -/
def field? (name : String) : (ps : List Property) → Fields ps → Option (Σ t : Ty, t.Carrier)
  | [], _ => none
  | p :: ps, (a, rest) => if name = p.name then some ⟨p.type, a⟩ else field? name ps rest

/-- A field is read through its type. -/
theorem get?_eq (name : String) (ps : List Property) (f : Fields ps) :
    get? name ps f = (field? name ps f).map fun x => x.1.toValue x.2 := by
  induction ps with
  | nil => rfl
  | cons p ps ih =>
      obtain ⟨a, rest⟩ := f
      rw [get?, field?]
      split
      · rfl
      · exact ih rest

/-- Every declared property has a field. -/
theorem exists_field? (h : name ∈ ps.map Property.name) (f : Fields ps) :
    ∃ t x, field? name ps f = some ⟨t, x⟩ := by
  induction ps with
  | nil => simp at h
  | cons p ps ih =>
      obtain ⟨a, rest⟩ := f
      rw [field?]
      split
      · exact ⟨p.type, a, rfl⟩
      next hOther =>
        rw [List.map_cons, List.mem_cons] at h
        exact ih (h.resolve_left hOther) rest

/-- What a name leads to is a property of the list, and its cell is one of the cells. -/
theorem of_field? {f : Fields ps} {x : t.Carrier} (h : field? name ps f = some ⟨t, x⟩) :
    (∃ p ∈ ps, p.type = t) ∧ (name, t.toValue x) ∈ toList ps f := by
  induction ps with
  | nil => simp [field?] at h
  | cons p ps ih =>
      obtain ⟨a, rest⟩ := f
      rw [field?] at h
      split at h
      next hName =>
        cases h
        exact ⟨⟨p, List.mem_cons_self .., rfl⟩, by rw [toList, hName]; exact List.mem_cons_self ..⟩
      next =>
        obtain ⟨⟨q, hq, hType⟩, hCell⟩ := ih h
        exact ⟨⟨q, List.mem_cons_of_mem p hq, hType⟩, List.mem_cons_of_mem _ hCell⟩

/-- What fits a property of one record can be set in every record, and changes no other property. -/
theorem exists_set? {f : Fields ps} {x y : t.Carrier} {v : Value} (h : field? name ps f = some ⟨t, x⟩)
    (hRead : t.ofValue v = .ok y) (g : Fields ps) :
    ∃ g', set? name v ps g = some (.ok g') ∧ field? name ps g' = some ⟨t, y⟩ ∧
      ∀ other, other ≠ name → field? other ps g' = field? other ps g := by
  induction ps with
  | nil => simp [field?] at h
  | cons p ps ih =>
      obtain ⟨a, rest⟩ := f
      obtain ⟨b, later⟩ := g
      by_cases hName : name = p.name
      · rw [field?, if_pos hName] at h
        cases h
        refine ⟨(y, later), ?_, ?_, ?_⟩
        · rw [set?, if_pos hName, hRead]
          rfl
        · rw [field?, if_pos hName]
        · intro other hOther
          rw [field?, field?, if_neg (hName ▸ hOther), if_neg (hName ▸ hOther)]
      · rw [field?, if_neg hName] at h
        obtain ⟨later', hSet, hField, hOthers⟩ := ih h later
        refine ⟨(b, later'), ?_, ?_, ?_⟩
        · rw [set?, if_neg hName, hSet]
          rfl
        · rw [field?, if_neg hName, hField]
        · intro other hOther
          rw [field?, field?, hOthers other hOther]

end Fields

/-! ### Records -/

variable {e : Entity} {same : ∀ t : Ty, t.Carrier → t.Carrier → Prop} {record : Record e} {p : String}

namespace Record

/-- The type and the value of a property. -/
def field? (r : Record e) (name : String) : Option (Σ t : Ty, t.Carrier) :=
  Fields.field? name e.properties r.fields

/-- The property has the same value in both records. -/
def AgreesOn (same : ∀ t : Ty, t.Carrier → t.Carrier → Prop) (r s : Record e) (name : String) : Prop :=
  ∃ t x y, r.field? name = some ⟨t, x⟩ ∧ s.field? name = some ⟨t, y⟩ ∧ same t x y

/-- The cell, coerced into the type of the property, is the value of the property. -/
def RestoredBy (same : ∀ t : Ty, t.Carrier → t.Carrier → Prop) (r : Record e) (name : String)
    (v : Value) : Prop :=
  ∃ t x y, r.field? name = some ⟨t, x⟩ ∧ t.ofValue v = .ok y ∧ same t x y

/-- A property is read through its type. -/
theorem get?_eq (r : Record e) (name : String) :
    r.get? name = (r.field? name).map fun x => x.1.toValue x.2 :=
  Fields.get?_eq name e.properties r.fields

/-- Every property of the entity has a field. -/
theorem exists_field? (h : p ∈ e.propertyNames) (r : Record e) : ∃ t x, r.field? p = some ⟨t, x⟩ :=
  Fields.exists_field? h r.fields

/-- A property is set to the value that a cell restores, and the others stay. -/
theorem exists_set {v : Value} (h : record.RestoredBy same p v) (report : List Fault → Failure)
    (s : Record e) :
    ∃ s', s.set report p v = .ok s' ∧ record.AgreesOn same s' p ∧
      ∀ q, record.AgreesOn same s q → record.AgreesOn same s' q := by
  obtain ⟨t, x, y, hField, hRead, hSame⟩ := h
  obtain ⟨fields, hSet, hNew, hOthers⟩ := Fields.exists_set? hField hRead s.fields
  have hAgrees : record.AgreesOn same ⟨fields⟩ p := ⟨t, x, y, hField, hNew, hSame⟩
  refine ⟨⟨fields⟩, ?_, hAgrees, ?_⟩
  · rw [set, hSet]
  · intro q hAgreed
    by_cases hq : q = p
    · rwa [hq]
    · obtain ⟨u, a, b, hRecord, hState, hEqual⟩ := hAgreed
      exact ⟨u, a, b, hRecord, (hOthers q hq).trans hState, hEqual⟩

end Record

/-! ### Cells -/

/-- Cells that restore what they are mapped to are all taken. What agreed with the record still does,
and so does from then on each property that some cell is mapped to. -/
theorem Mapping.exists_wrapCells {m : Mapping} {cells : List (String × Value)}
    (h : ∀ cell ∈ cells, ∀ p, m.propertyOf? cell.1 = some p → record.RestoredBy same p cell.2)
    (s : Record e) :
    ∃ s', m.wrapCells s cells = .ok s' ∧
      (∀ q, record.AgreesOn same s q → record.AgreesOn same s' q) ∧
      ∀ cell ∈ cells, ∀ p, m.propertyOf? cell.1 = some p → record.AgreesOn same s' p := by
  -- From cell to cell the record under construction changes, the one it is compared with does not.
  induction cells generalizing s with
  | nil => exact ⟨s, rfl, fun _ h => h, by simp⟩
  | cons cell cells ih =>
      obtain ⟨label, v⟩ := cell
      rw [List.forall_mem_cons] at h
      obtain ⟨hFirst, hRest⟩ := h
      cases hProperty : m.propertyOf? label with
      | none =>
          obtain ⟨s', hWrap, hKept, hTold⟩ := ih hRest s
          refine ⟨s', ?_, hKept, ?_⟩
          · rw [wrapCells, hProperty]
            exact hWrap
          · rw [List.forall_mem_cons]
            exact ⟨by simp [hProperty], hTold⟩
      | some p =>
          let report (faults : List Fault) : Failure :=
            .of (.mapping ⟨.mapping, m.table, some label⟩ (.property m.entity p faults))
          obtain ⟨next, hSet, hAgrees, hStays⟩ := Record.exists_set (hFirst p hProperty) report s
          obtain ⟨s', hWrap, hKept, hTold⟩ := ih hRest next
          refine ⟨s', ?_, fun q hq => hKept q (hStays q hq), ?_⟩
          · rw [wrapCells, hProperty]
            exact Result.bind_eq_ok_iff.mpr ⟨next, hSet, hWrap⟩
          · rw [List.forall_mem_cons]
            refine ⟨?_, hTold⟩
            intro q hq
            obtain rfl := Option.some.inj (hProperty.symm.trans hq)
            exact hKept p hAgrees

end SqlMapper
