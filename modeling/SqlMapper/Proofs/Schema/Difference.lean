import SqlMapper.Proofs.Schema.Shape

/-! Columns that differ. Whether two columns differ is decided by what is left of them when the values
that describe their types are emptied and the letter case of the types that they name is forgotten, and so
is the type that each has in the database. -/
namespace SqlMapper

namespace Value

/-- The NULL of the same type, and of the same element type down to the innermost list. -/
def bareType : Value → Value
  | null => null
  | boolean _ => boolean none
  | integer k _ => integer k none
  | float p _ => float p none
  | decimal _ p s => decimal none p s
  | text _ => text none
  | blob _ => blob none
  | date _ => date none
  | time _ => time none
  | timestamp _ => timestamp none
  | zoned _ => zoned none
  | uuid _ => uuid none
  | list _ element => list none element.bareType

/-- Values have one type if nothing but what they hold tells them apart. -/
theorem sameType_iff {v w : Value} : v.sameType w = true ↔ v.bareType = w.bareType := by
  induction v using Value.rec (motive_2 := fun _ => True) (motive_3 := fun _ => True)
      generalizing w with
  | list items element _ ih =>
      cases w with
      | list items' element' => simp [sameType, bareType, ih]
      | _ => simp [sameType, bareType]
  | integer k x =>
      cases w with
      | integer l y =>
          constructor
          · intro h
            obtain rfl : k = l := by simpa [sameType] using h
            rfl
          · intro h
            simp only [bareType, integer.injEq] at h
            simp [sameType, h.1]
      | _ => simp [sameType, bareType]
  | float p x =>
      cases w with
      | float q y =>
          constructor
          · intro h
            obtain rfl : p = q := by simpa [sameType] using h
            rfl
          · intro h
            simp only [bareType, float.injEq] at h
            simp [sameType, h.1]
      | _ => simp [sameType, bareType]
  | nil | cons | none | some => trivial
  | _ => cases w <;> simp [sameType, bareType]

end Value

namespace Column

variable {a b c : Column}

/-- What two columns that do not differ have in common. -/
theorem differs_eq_false_iff : a.differs b = false ↔
    a.type.bareType = b.type.bareType ∧ Text.lowerCase a.typeName = Text.lowerCase b.typeName ∧
      a.length = b.length ∧ a.precision = b.precision ∧ a.nullable = b.nullable := by
  simp only [differs, Bool.or_eq_false_iff, Bool.not_eq_false', bne_eq_false_iff_eq,
    Value.sameType_iff, Text.sameName_iff, and_assoc]

/-- Having no difference is an equivalence of columns. -/
theorem equivalence_not_differs : Equivalence fun a b : Column => a.differs b = false where
  refl := differs_self
  symm h := by
    obtain ⟨hType, hName, hLength, hPrecision, hNullable⟩ := differs_eq_false_iff.mp h
    exact differs_eq_false_iff.mpr
      ⟨hType.symm, hName.symm, hLength.symm, hPrecision.symm, hNullable.symm⟩
  trans h h' := by
    obtain ⟨hType, hName, hLength, hPrecision, hNullable⟩ := differs_eq_false_iff.mp h
    obtain ⟨hType', hName', hLength', hPrecision', hNullable'⟩ := differs_eq_false_iff.mp h'
    exact differs_eq_false_iff.mpr ⟨hType.trans hType', hName.trans hName',
      hLength.trans hLength', hPrecision.trans hPrecision', hNullable.trans hNullable'⟩

theorem differs_comm (a b : Column) : a.differs b = b.differs a := by
  rw [Bool.eq_iff_iff, ← not_iff_not, Bool.not_eq_true, Bool.not_eq_true]
  exact ⟨equivalence_not_differs.symm, equivalence_not_differs.symm⟩

/-- Two columns that do not differ have types of one name in the database, letter case aside, or neither
has one, whatever tables they belong to. -/
theorem columnType_alike (d : Dialect) (h : a.differs b = false) (table other : String) :
    (∃ s t, d.columnType table a = .ok s ∧ d.columnType other b = .ok t ∧
      Text.sameName s t = true) ∨
    ∃ e f, d.columnType table a = .error e ∧ d.columnType other b = .error f := by
  have hRel := sharesType_of_not_differs (d := d) h table
  rw [Dialect.toOption_columnType_eq d table other b] at hRel
  cases hFirst : d.columnType table a with
  | ok s =>
      cases hSecond : d.columnType other b with
      | ok t =>
          rw [hFirst, hSecond] at hRel
          cases hRel with
          | some hName => exact .inl ⟨s, t, rfl, rfl, hName⟩
      | error f =>
          rw [hFirst, hSecond] at hRel
          cases hRel
  | error e =>
      cases hSecond : d.columnType other b with
      | ok t =>
          rw [hFirst, hSecond] at hRel
          cases hRel
      | error f => exact .inr ⟨e, f, rfl, rfl⟩

/-- To be no different is an equivalence of columns, under which the type in the database stays the same:
it has one name in every dialect, letter case aside, or cannot be named for either. -/
theorem differs_congr (d : Dialect) :
    (∀ a b : Column, a.differs b = false → ∀ table other : String,
      (∃ s t, d.columnType table a = .ok s ∧ d.columnType other b = .ok t ∧
        Text.sameName s t = true) ∨
      ∃ e f, d.columnType table a = .error e ∧ d.columnType other b = .error f) ∧
    (∀ a b : Column, a.differs b = b.differs a) ∧
    (∀ a : Column, a.differs a = false) ∧
    ∀ a b c : Column, a.differs b = false → b.differs c = false → a.differs c = false :=
  ⟨fun _ _ => columnType_alike d, differs_comm, differs_self,
    fun _ _ _ => equivalence_not_differs.trans⟩

/-- Lists of lists that hold different things, and types that the columns name themselves. -/
theorem differs_congr_nested :
    let element (v : Option Decimal) : Value := .list (some [.decimal v 9 9]) (.decimal v 10 2)
    let a : Column := { name := "a", type := .list none (element none), nullable := true }
    let b : Column := { name := "b", type := .list (some []) (element (some .zero)), nullable := true }
    let c : Column := { a with typeName := "Amounts" }
    let k : Column := { b with typeName := "AMOUNTS", isKey := true }
    a.differs b = false ∧ c.differs k = false ∧ k.differs c = false ∧
      Dialect.generic.columnType "t" a = .ok "NUMERIC(10,2)[][]" ∧
      Dialect.generic.columnType "u" b = .ok "NUMERIC(10,2)[][]" ∧
      (∃ e f, Dialect.mysql.columnType "t" a = .error e ∧ Dialect.mysql.columnType "u" b = .error f) ∧
      ∃ s t, Dialect.mysql.columnType "t" c = .ok s ∧ Dialect.mysql.columnType "u" k = .ok t ∧
        Text.sameName s t = true := by
  intro element a b c k
  have hBare : a.differs b = false := by decide
  have hNamed : c.differs k = false := by decide
  obtain ⟨hAlike, hSymm, -, -⟩ := differs_congr .mysql
  refine ⟨hBare, hNamed, (hSymm k c).trans hNamed, rfl, rfl, ?_, ?_⟩
  · exact (hAlike a b hBare "t" "u").resolve_left (by rintro ⟨s, t, hType, -⟩; cases hType)
  · exact (hAlike c k hNamed "t" "u").resolve_right (by rintro ⟨e, f, hType, -⟩; cases hType)

end Column

end SqlMapper
