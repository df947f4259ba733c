import SqlMapper.Proofs.Result
import SqlMapper.Proofs.Value.Equality
import SqlMapper.Value.Coercion

/-! Values of properties as cells and back. An option has one NULL for all that may be missing in it,
so an option directly inside another one cannot be told from it; every other type is read back. -/
namespace SqlMapper.Ty

/-- The values of the type may be missing. -/
def isOption : Ty → Bool
  | option _ => true
  | _ => false

/-- No option stands directly inside an option, however deep. -/
def isUnnested : Ty → Bool
  | option t => !t.isOption && t.isUnnested
  | vec t => t.isUnnested
  | _ => true

variable {t : Ty}

/-! ### Cells -/

/-- Only options are NULL as cells. -/
theorem isNull_toValue (h : t.isOption = false) (x : t.Carrier) : (t.toValue x).isNull = false := by
  cases t with
  | option t => cases h
  | _ => rfl

/-- The cell of a value has the type that the NULL of the type describes. -/
theorem sameType_toValue (t : Ty) (x : t.Carrier) : t.null.sameType (t.toValue x) = true := by
  induction t with
  | option t ih =>
      cases x with
      | none => exact t.null.sameType_self
      | some x => exact ih x
  | vec t => exact t.null.sameType_self
  | integer k => exact beq_self_eq_true k
  | float p => exact beq_self_eq_true p
  | decimal => rfl
  | boolean | text | blob | date | time | timestamp | zoned | uuid => rfl

theorem ofValue_option_of_isNull (t : Ty) {v : Value} (h : v.isNull = true) :
    (option t).ofValue v = .ok none :=
  if_pos h

/-! ### Reading back -/

/-- Elements that are read back one by one are read back together. -/
theorem coerceAll_map {α : Type} {coerce : Value → Coerced α} {write : α → Value} {as : List α}
    (h : ∀ a ∈ as, coerce (write a) = .ok a) : coerceAll coerce (as.map write) = .ok as := by
  induction as with
  | nil => rfl
  | cons a as ih =>
      rw [List.forall_mem_cons] at h
      rw [List.map_cons, coerceAll, h.1, ih h.2]
      rfl

/-- An integer is read as itself. -/
theorem toInteger_self {k : IntegerKind} (n : Integer k) :
    toInteger k (.integer k (some n)) = .ok n := by
  rw [toInteger, Integer.ofInt?_val]
  rfl

/-- Every value of a type is read back. -/
theorem ofValue_toValue (h : t.isUnnested = true) (x : t.Carrier) :
    t.ofValue (t.toValue x) = .ok x := by
  induction t with
  | option t ih =>
      rw [isUnnested, Bool.and_eq_true, Bool.not_eq_true'] at h
      cases x with
      | none => exact ofValue_option_of_isNull t t.isNull_null
      | some x =>
          -- What the option holds is no option itself, so its cell is not taken for a missing one.
          change (if (t.toValue x).isNull then _ else (t.ofValue (t.toValue x)).map some) = _
          rw [isNull_toValue h.1, ih h.2]
          rfl
  | vec t ih => exact coerceAll_map fun x _ => ih h x
  | integer k => exact toInteger_self x
  | float p => exact congrArg Except.ok (dif_pos rfl)
  | boolean | decimal | text | blob | date | time | timestamp | zoned | uuid => rfl

/-- An option that holds a missing one comes back as missing, so no other types have values that all
come back. -/
theorem isUnnested_iff : t.isUnnested = true ↔ ∀ x, t.ofValue (t.toValue x) = .ok x := by
  refine ⟨ofValue_toValue, fun h => ?_⟩
  induction t with
  | option t ih =>
      have hOption : t.isOption = false := by
        cases t with
        | option u =>
            have hMissing := ofValue_option_of_isNull (option u) u.isNull_null
            cases (h (some none)).symm.trans hMissing
        | _ => rfl
      rw [isUnnested, hOption, Bool.not_false, Bool.true_and]
      refine ih fun x => ?_
      have hSome : (if (t.toValue x).isNull then .ok none else (t.ofValue (t.toValue x)).map some) =
          (.ok (some x) : Coerced (Option t.Carrier)) := h (some x)
      rw [isNull_toValue hOption x, if_neg Bool.false_ne_true, Result.map_eq_ok_iff] at hSome
      obtain ⟨y, hRead, hSame⟩ := hSome
      rw [hRead, Option.some.inj hSame]
  | vec t ih =>
      refine ih fun x => ?_
      obtain ⟨y, hRead, hRest⟩ := Result.bind_eq_ok_iff.mp (h [x])
      obtain rfl : y = x := (List.cons.inj (Except.ok.inj hRest)).1
      exact hRead
  | _ => rfl

/-- All that properties of a type hold comes back from its cells exactly if no option stands directly
inside an option. The NULL of the type describes the types of the cells, and an option reads every
NULL as missing. -/
theorem roundTrip (t : Ty) :
    (t.isUnnested = true ↔ ∀ x, t.ofValue (t.toValue x) = .ok x) ∧
    (t.null.isNull = true ∧ ∀ x, t.null.sameType (t.toValue x) = true) ∧
    ∀ v, v.isNull = true → (option t).ofValue v = .ok none :=
  ⟨isUnnested_iff, ⟨t.isNull_null, sameType_toValue t⟩, fun _ => ofValue_option_of_isNull t⟩

/-- A list of lists, of which some are missing and some are empty. -/
theorem roundTrip_lists :
    let t := vec (option (vec (integer .uint8)))
    let x : t.Carrier := [some [⟨0, by decide⟩, ⟨255, by decide⟩], none, some []]
    t.isUnnested = true ∧ t.ofValue (t.toValue x) = .ok x ∧
      t.null.sameType (t.toValue x) = true ∧ (option t).ofValue (.date none) = .ok none := by
  intro t x
  have hUnnested : t.isUnnested = true := rfl
  obtain ⟨hBack, ⟨-, hType⟩, hMissing⟩ := roundTrip t
  exact ⟨hUnnested, hBack.mp hUnnested x, hType x, hMissing (.date none) rfl⟩

end SqlMapper.Ty
