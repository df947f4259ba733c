import Mathlib.Data.Option.Basic
import SqlMapper.Proofs.Result
import SqlMapper.Proofs.Value.Equality
import SqlMapper.Sql.TypeName

/-! Shapes of columns. Columns that do not differ have types of one name in every dialect, letter
case aside, whatever values describe them. -/
namespace SqlMapper

/-! ### Names of types -/

theorem Text.lowerCase_eq_empty_iff {s : String} : lowerCase s = "" ↔ s = "" := by
  rw [← String.toList_eq_nil_iff, lowerCase, String.toList_ofList, List.map_eq_nil_iff,
    String.toList_eq_nil_iff]

theorem Text.isEmpty_congr {s t : String} (h : sameName s t = true) : s.isEmpty = t.isEmpty := by
  rw [Bool.eq_iff_iff, String.isEmpty_iff, String.isEmpty_iff, ← lowerCase_eq_empty_iff,
    sameName_iff.mp h, lowerCase_eq_empty_iff]

namespace Value

/-- Values of one type describe one type name. -/
theorem commonType_congr {dialect : String} {v w : Value} (h : v.sameType w = true)
    (length : Option Nat) (precision : Option (Nat × Nat)) :
    Dialect.commonType dialect length precision v = Dialect.commonType dialect length precision w := by
  induction v using Value.rec (motive_2 := fun _ => True) (motive_3 := fun _ => True)
      generalizing w length precision with
  | list items element _ ih =>
      cases w with
      | list items' element' => rw [Dialect.commonType, Dialect.commonType, ih h]
      | _ => simp [sameType] at h
  | integer kind v =>
      cases w with
      | integer kind' v' =>
          obtain rfl : kind = kind' := by simpa [sameType] using h
          cases kind <;> rfl
      | _ => simp [sameType] at h
  | float p v =>
      cases w with
      | float q v' =>
          obtain rfl : p = q := by simpa [sameType] using h
          cases p <;> rfl
      | _ => simp [sameType] at h
  | nil | cons | none | some => trivial
  | _ => cases w <;> simp_all [sameType, Dialect.commonType]

/-- Values of one type describe one storage class, if any. -/
theorem storageClass_congr {dialect : String} {v w : Value} (h : v.sameType w = true)
    (length : Option Nat) :
    (Dialect.storageClass dialect length v).toOption =
      (Dialect.storageClass dialect length w).toOption := by
  cases v with
  | list items element =>
      cases w with
      | list items' element' => rfl
      | _ => simp [sameType] at h
  | _ => cases w <;> simp_all [sameType, Dialect.storageClass]

/-- Values of one type describe one sized type, if any. -/
theorem sizedType_congr {dialect : String} {v w : Value} (h : v.sameType w = true)
    (length : Option Nat) (precision : Option (Nat × Nat)) :
    (Dialect.sizedType dialect length precision v).toOption =
      (Dialect.sizedType dialect length precision w).toOption := by
  cases v with
  | list items element =>
      cases w with
      | list items' element' => rfl
      | _ => simp [sameType] at h
  | integer kind v =>
      cases w with
      | integer kind' v' =>
          obtain rfl : kind = kind' := by simpa [sameType] using h
          cases kind <;> rfl
      | _ => simp [sameType] at h
  | float p v =>
      cases w with
      | float q v' =>
          obtain rfl : p = q := by simpa [sameType] using h
          cases p <;> rfl
      | _ => simp [sameType] at h
  | _ => cases w <;> simp_all [sameType, Dialect.sizedType]

end Value

namespace Dialect

variable {d : Dialect} {c k : Column}

/-- Values of one type have one type name, if any. -/
theorem typeName_congr {v w : Value} (h : v.sameType w = true) (length : Option Nat)
    (precision : Option (Nat × Nat)) :
    (d.typeName v length precision).toOption = (d.typeName w length precision).toOption := by
  rw [typeName, typeName]
  cases d.types with
  | common => exact congrArg Except.toOption (Value.commonType_congr h length precision)
  | storageClasses => exact Value.storageClass_congr h length
  | sized => exact Value.sizedType_congr h length precision

/-- The type of a column is the one that it names, else the one that its value describes. -/
theorem toOption_columnType (d : Dialect) (table : String) (c : Column) :
    (d.columnType table c).toOption =
      if c.typeName.isEmpty then (d.typeName c.type c.length c.precision).toOption
      else some c.typeName := by
  rw [columnType]
  cases c.typeName.isEmpty with
  | true => cases d.typeName c.type c.length c.precision <;> rfl
  | false => rfl

/-- The type of a column has one name in all tables. -/
theorem toOption_columnType_eq (d : Dialect) (table other : String) (c : Column) :
    (d.columnType table c).toOption = (d.columnType other c).toOption := by
  rw [toOption_columnType, toOption_columnType]

/-- The type text of a column does not depend on the table. -/
theorem columnType_congr {table other type type' : String}
    (h : d.columnType table c = .ok type) (h' : d.columnType other c = .ok type') : type = type' := by
  have hSame := toOption_columnType_eq d table other c
  rw [h, h'] at hSame
  exact Option.some.inj hSame

end Dialect

namespace Column

variable {d : Dialect} {c k : Column}

/-- Defaults are the same when both are absent or both values are the same. -/
theorem sameDefault_eq (c k : Column) :
    c.sameDefault k = sameOption Value.same c.default k.default := by
  unfold sameDefault
  cases c.default <;> cases k.default <;> rfl

/-- The types of two columns have one name in the database, letter case aside, or neither has one. -/
def SharesType (d : Dialect) (c k : Column) : Prop :=
  ∀ table, Option.Rel (fun s t => Text.sameName s t = true) (d.columnType table c).toOption
    (d.columnType table k).toOption

/-- Columns with equal type texts share their type. -/
theorem sharesType_of_eq
    (h : ∀ table, (d.columnType table c).toOption = (d.columnType table k).toOption) :
    SharesType d c k := by
  intro table
  rw [h]
  cases (d.columnType table k).toOption with
  | none => exact .none
  | some type => exact .some (Text.sameName_self type)

/-- Columns of one shape have types of one name. -/
theorem sharesType_of_not_differs (h : c.differs k = false) : SharesType d c k := by
  simp only [differs, Bool.or_eq_false_iff, Bool.not_eq_false', bne_eq_false_iff_eq] at h
  obtain ⟨⟨⟨⟨hSame, hName⟩, hLength⟩, hPrecision⟩, -⟩ := h
  have hEmpty := Text.isEmpty_congr hName
  cases hNamed : c.typeName.isEmpty with
  | true =>
      refine sharesType_of_eq fun table => ?_
      rw [Dialect.toOption_columnType, Dialect.toOption_columnType, ← hEmpty, hNamed, hLength,
        hPrecision]
      exact Dialect.typeName_congr hSame ..
  | false =>
      intro table
      rw [Dialect.toOption_columnType, Dialect.toOption_columnType, ← hEmpty, hNamed]
      exact .some hName

/-- Columns that share their type have type texts equal in any case. -/
theorem SharesType.columnType_eq_ok (h : SharesType d c k) {table type : String}
    (hType : d.columnType table c = .ok type) :
    ∃ knownType, d.columnType table k = .ok knownType ∧ Text.sameName knownType type = true := by
  have hRel := h table
  rw [hType] at hRel
  cases hKnown : d.columnType table k with
  | error e =>
      rw [hKnown] at hRel
      cases hRel
  | ok knownType =>
      rw [hKnown] at hRel
      cases hRel with
      | some hName => exact ⟨knownType, rfl, by rwa [Text.sameName_comm]⟩

end Column

end SqlMapper
