import SqlMapper.Migration.Edit

/-! Values that equal themselves. A value that equals anything equals itself, and so does every value
that has a literal, but for a missing list whose element type holds what is no number. -/
namespace SqlMapper

/-- A float equals itself unless it is not a number. -/
theorem Binary.same_self_iff {p : Precision} {x : Binary p} :
    x.same x = true ↔ x.value ≠ .nan := by
  unfold Binary.same
  cases x.value <;> simp

theorem Decimal.same_self (a : Decimal) : a.same a = true := by simp [Decimal.same]

theorem Zoned.same_self (z : Zoned) : z.same z = true := by simp [Zoned.same]

/-- Options are the same as themselves where what they hold is. -/
theorem sameOption_self {same : α → α → Bool} (o : Option α) (h : ∀ a ∈ o, same a a = true) :
    sameOption same o o = true := by
  cases o with
  | none => rfl
  | some a => exact h a rfl

namespace Value

/-- A number that equals another one is a number. -/
theorem binary_self_of_same {p : Precision} {x y : Option (Binary p)}
    (h : sameOption Binary.same x y = true) : sameOption Binary.same x x = true := by
  cases x with
  | none => rfl
  | some x =>
      cases y with
      | none => simp [sameOption] at h
      | some y =>
          refine Binary.same_self_iff.mpr fun hNan => ?_
          simp [sameOption, Binary.same, hNan] at h

mutual

/-- What equals another value equals itself. -/
theorem same_self_of_same : ∀ (v : Value) {w : Value}, v.same w = true → v.same v = true
  | null, _, _ => rfl
  | boolean _, _, _ | integer _ _, _, _ | text _, _, _ | blob _, _, _ | date _, _, _ | time _, _, _
  | timestamp _, _, _ | uuid _, _, _ => by simp [same]
  | float .single x, w, h => by
      cases w with
      | float q y =>
          cases q with
          | single => exact binary_self_of_same h
          | double => simp [same] at h
      | _ => simp [same] at h
  | float .double x, w, h => by
      cases w with
      | float q y =>
          cases q with
          | single => simp [same] at h
          | double => exact binary_self_of_same h
      | _ => simp [same] at h
  | decimal x _ _, _, _ => by simp [same, sameOption_self x fun a _ => Decimal.same_self a]
  | zoned x, _, _ => by simp [same, sameOption_self x fun a _ => Zoned.same_self a]
  | list none a, w, h => by
      cases w with
      | list ys b =>
          cases ys with
          | none => exact same_self_of_same a h
          | some ys => simp [same] at h
      | _ => simp [same] at h
  | list (some xs) a, w, h => by
      cases w with
      | list ys b =>
          cases ys with
          | none => simp [same] at h
          | some ys =>
              rw [same, Bool.and_eq_true] at h ⊢
              exact ⟨sameAll_self_of_sameAll xs h.1, same_self_of_same a h.2⟩
      | _ => simp [same] at h

/-- A list that equals some list equals itself. -/
theorem sameAll_self_of_sameAll :
    ∀ (xs : List Value) {ys : List Value}, sameAll xs ys = true → sameAll xs xs = true
  | [], _, _ => rfl
  | x :: xs, ys, h => by
      cases ys with
      | nil => simp [sameAll] at h
      | cons y ys =>
          rw [sameAll, Bool.and_eq_true] at h ⊢
          exact ⟨same_self_of_same x h.1, sameAll_self_of_sameAll xs h.2⟩

end

theorem sameType_self (v : Value) : v.sameType v = true := by
  induction v using Value.rec (motive_2 := fun _ => True) (motive_3 := fun _ => True) with
  | list items element _ ih => exact ih
  | nil | cons | none | some => trivial
  | _ => simp [sameType]

/-- The type of the elements of a missing list equals itself, if the value is one. Nothing asks for
that type to be a type and not a value. -/
def Settled (v : Value) : Prop := ∀ element, v = .list none element → element.same element = true

/-- What has a literal equals itself. -/
theorem same_self_of_literal {d : Dialect} {v : Value} {literal : String}
    (h : d.literal v = .ok literal) (hSettled : v.Settled) : v.same v = true := by
  cases v with
  | null => rfl
  | float p x =>
      cases x with
      | none => cases p <;> rfl
      | some x =>
          have hNumber : x.value ≠ .nan := by
            intro hNan
            simp [Dialect.literal, Binary.isFinite, hNan] at h
          cases p <;> exact Binary.same_self_iff.mpr hNumber
  | decimal x _ _ => simp [same, sameOption_self x fun a _ => Decimal.same_self a]
  | zoned x => simp [same, sameOption_self x fun a _ => Zoned.same_self a]
  | list items element =>
      cases items with
      | none => exact hSettled element rfl
      | some items => simp [Dialect.literal] at h
  | _ => simp [same]

end Value

namespace Column

/-- A column whose default equals some default has one that equals itself. -/
theorem sameDefault_self_of_same {c d : Column} (h : c.sameDefault d = true) :
    c.sameDefault c = true := by
  unfold sameDefault at h ⊢
  cases hDefault : c.default with
  | none => rfl
  | some v =>
      cases hOther : d.default with
      | none => simp [hDefault, hOther] at h
      | some w =>
          rw [hDefault, hOther] at h
          exact Value.same_self_of_same v h

/-- No column differs from itself. -/
theorem differs_self (c : Column) : c.differs c = false := by
  simp [differs, Value.sameType_self]

end Column

end SqlMapper
