import SqlMapper.Proofs.Number.Integer
import SqlMapper.Proofs.Storage.RoundTrip
import SqlMapper.Proofs.Value.Literal

/-! Numbers that a store hands back as integers of any kind that holds them, or as text. Decimals take
all these forms for the same number. Booleans take every integer but only the texts of zero and one, so
the forms of any other number are told apart. -/
namespace SqlMapper

open NumberPart (signed toList_toString)

/-! ### Text of integers -/

/-- The text of an integer denotes it. -/
theorem Numeral.denotes_toString {k : IntegerKind} (hSigned : k.signed = true) (n : Int) :
    Denotes k (toString n).toList n := by
  have hDigits := digits_toDigits n.natAbs
  have hValue : Nat.ofDigitChars 10 (Nat.toDigits 10 n.natAbs) 0 = n.natAbs :=
    Nat.ofDigitChars_ten_toDigits
  rw [toList_toString, signed]
  by_cases hNegative : n < 0
  · have hMinus : -(n.natAbs : Int) = n := by omega
    rw [if_pos (decide_eq_true hNegative)]
    have hDenotes := Denotes.minus hSigned hDigits Nat.toDigits_ne_nil
    rwa [hValue, hMinus] at hDenotes
  · have hPlain : (n.natAbs : Int) = n := by omega
    rw [if_neg (by simpa using hNegative)]
    have hDenotes := Denotes.bare (k := k) hDigits Nat.toDigits_ne_nil
    rwa [hValue, hPlain] at hDenotes

theorem toString_eq_toString_iff {m n : Int} : toString m = toString n ↔ m = n := by
  constructor
  · intro h
    have hDenotes : Numeral.Denotes .int64 (toString n).toList m := h ▸ Numeral.denotes_toString rfl m
    exact hDenotes.unique (Numeral.denotes_toString rfl n)
  · exact congrArg toString

/-- The text of an integer has no letters. -/
theorem toString_ne_of_letter {n : Int} {word : String}
    (h : (word.toList.any fun c => !c.isDigit && c != '-') = true) : toString n ≠ word := by
  rintro rfl
  obtain ⟨c, hc, hLetter⟩ := List.any_eq_true.mp h
  simp only [Bool.and_eq_true, Bool.not_eq_true', bne_iff_ne] at hLetter
  obtain ⟨hNoDigit, hNoMinus⟩ := hLetter
  rw [toList_toString, signed] at hc
  split at hc
  next =>
    rcases List.mem_cons.mp hc with hMinus | hDigit
    · exact hNoMinus hMinus
    · exact absurd (Numeral.digits_toDigits _ c hDigit) (by simp [hNoDigit])
  next => exact absurd (Numeral.digits_toDigits _ c hc) (by simp [hNoDigit])

namespace Numeral

theorem toList_padded_one (n : Nat) : (padded 1 n).toList = Nat.toDigits 10 n := by
  have hSome : 0 < (Nat.toDigits 10 n).length := List.length_pos_iff.mpr Nat.toDigits_ne_nil
  have hNone : 1 - (Nat.toDigits 10 n).length = 0 := by omega
  rw [toList_padded, hNone]
  rfl

end Numeral

namespace Decimal

variable {k l : IntegerKind}

theorem ofInteger_congr {x : Integer k} {y : Integer l} (h : x.val = y.val) :
    ofInteger x = ofInteger y := by
  simp only [ofInteger, h]

/-- A whole decimal is written as its integer. -/
theorem text_ofInteger (x : Integer k) : (ofInteger x).text = toString x.val := by
  have hPlaces : (ofInteger x).places = [] := List.length_eq_zero_iff.mp (length_places _)
  have hWhole : (ofInteger x).whole = Nat.toDigits 10 x.val.natAbs := by
    have hDigits := whole_append_places (ofInteger x)
    rw [hPlaces, List.append_nil] at hDigits
    exact hDigits.trans (Numeral.toList_padded_one _)
  have hSign : (ofInteger x).negative = decide (x.val < 0) := rfl
  apply String.toList_inj.mp
  rw [toList_text, unsignedText, hPlaces, hWhole, hSign, toList_toString, signed]
  split <;> simp

/-- An integer has no zero with a sign, so nothing of it is lost as text. -/
theorem asRead_ofInteger (x : Integer k) : (ofInteger x).asRead = ofInteger x := by
  have hSign : (decide (x.val < 0) && x.val.natAbs != 0) = decide (x.val < 0) := by
    by_cases h : x.val < 0
    · have hSome : x.val.natAbs ≠ 0 := by omega
      simp [h, hSome]
    · simp [h]
  simp only [asRead, ofInteger, hSign]

end Decimal

/-! ### Forms -/

/-- The cell is the number in one of the forms in which a store hands it back. -/
inductive Value.IsForm (n : Int) : Value → Prop
  | integer {k : IntegerKind} (x : Integer k) (h : x.val = n) : IsForm n (.integer k (some x))
  | text : IsForm n (.text (some (toString n)))

/-- Both give the same value, or neither gives one. -/
def Coerced.Agree {α : Type} (x y : Coerced α) : Prop := x.toOption = y.toOption

namespace Ty

variable {k : IntegerKind} {v : Value} {n : Int}

/-- Every form of an integer is read as one decimal. -/
theorem toDecimal_of_isForm (x : Integer k) (h : v.IsForm x.val) :
    toDecimal v = .ok (Decimal.ofInteger x) := by
  cases h with
  | integer y hVal => exact congrArg Except.ok (Decimal.ofInteger_congr hVal)
  | text => rw [← Decimal.text_ofInteger, toDecimal_text, Decimal.asRead_ofInteger]

theorem toBoolean_integer (x : Integer k) : toBoolean (.integer k (some x)) = .ok (x.val != 0) := rfl

/-- A numeral is read as a boolean only for zero and one. -/
theorem toBoolean_toString (n : Int) : toBoolean (.text (some (toString n))) =
    if n = 0 ∨ n = 1 then .ok (n != 0) else .error (.mismatch (.text (some (toString n))) .boolean) := by
  have hTrim : Text.trim (toString n) = toString n :=
    Text.trim_of_solid (Numeral.denotes_toString (k := .int64) rfl n).solid
  by_cases h0 : n = 0
  · subst h0
    rfl
  · by_cases h1 : n = 1
    · subst h1
      rfl
    · have hOne : toString n ≠ "1" := mt (toString_eq_toString_iff (n := 1)).mp h1
      have hZero : toString n ≠ "0" := mt (toString_eq_toString_iff (n := 0)).mp h0
      have hLetters : ∀ word ∈ ["true", "TRUE", "false", "FALSE"],
          (word.toList.any fun c => !c.isDigit && c != '-') = true := by decide
      have hWords : ∀ word ∈ ["true", "TRUE", "false", "FALSE"], toString n ≠ word :=
        fun word hWord => toString_ne_of_letter (hLetters word hWord)
      simp only [List.forall_mem_cons] at hWords
      obtain ⟨hTrue, hUpperTrue, hFalse, hUpperFalse, -⟩ := hWords
      have hNoTrue : ["1", "true", "TRUE"].contains (toString n) = false := by
        simp [-Int.toString_eq_repr, hOne, hTrue, hUpperTrue]
      have hNoFalse : ["0", "false", "FALSE"].contains (toString n) = false := by
        simp [-Int.toString_eq_repr, hZero, hFalse, hUpperFalse]
      rw [if_neg (not_or.mpr ⟨h0, h1⟩), toBoolean, hTrim, hNoTrue, hNoFalse]
      rfl

/-- A number that some kind of integer holds is the same decimal in each of its forms, with its own text.
Of the forms of zero and one a boolean reads the same, too. Any other number is true as an integer and
refused as a text. -/
theorem forms_alike (n : Int) (hHeld : ∃ k : IntegerKind, k.Holds n) :
    (∃ d : Decimal, d.text = toString n ∧ ∀ v : Value, v.IsForm n → decimal.ofValue v = .ok d) ∧
    (∀ (k : IntegerKind) (x : Integer k), x.val = n →
      boolean.ofValue (.integer k (some x)) = .ok (n != 0 : Bool)) ∧
    (boolean.ofValue (.text (some (toString n))) = if n = 0 ∨ n = 1 then .ok (n != 0 : Bool)
      else .error (.mismatch (.text (some (toString n))) .boolean)) ∧
    ((∀ v w : Value, v.IsForm n → w.IsForm n → Coerced.Agree (boolean.ofValue v) (boolean.ofValue w)) ↔
      n = 0 ∨ n = 1) := by
  obtain ⟨k, hHolds⟩ := hHeld
  let own : Integer k := ⟨n, hHolds⟩
  refine ⟨⟨Decimal.ofInteger own, Decimal.text_ofInteger own, fun v => toDecimal_of_isForm own⟩,
    ?_, toBoolean_toString n, ?_⟩
  · rintro l x rfl
    exact toBoolean_integer x
  · constructor
    · intro hAgree
      have hForms : (toBoolean (.integer k (some own))).toOption =
          (toBoolean (.text (some (toString n)))).toOption :=
        hAgree _ _ (.integer own rfl) .text
      rw [toBoolean_integer, toBoolean_toString] at hForms
      by_contra hOther
      rw [if_neg hOther] at hForms
      cases hForms
    · intro hBit v w hv hw
      have hRead {u : Value} (hu : u.IsForm n) : boolean.ofValue u = .ok (n != 0 : Bool) := by
        cases hu with
        | integer x hVal => exact hVal ▸ toBoolean_integer x
        | text => exact (toBoolean_toString n).trans (if_pos hBit)
      rw [hRead hv, hRead hw]
      rfl

/-- The greatest number that only one kind holds. -/
theorem forms_alike_greatest :
    let n : Int := 18446744073709551615
    (∃ k : IntegerKind, k.Holds n) ∧
    (∃ d : Decimal, d.text = "18446744073709551615" ∧
      ∀ v : Value, v.IsForm n → decimal.ofValue v = .ok d) ∧
    ¬ ∀ v w : Value, v.IsForm n → w.IsForm n →
      Coerced.Agree (boolean.ofValue v) (boolean.ofValue w) := by
  intro n
  have hHeld : ∃ k : IntegerKind, k.Holds n := ⟨.uint64, by decide⟩
  obtain ⟨hDecimal, -, -, hBoolean⟩ := forms_alike n hHeld
  exact ⟨hHeld, hDecimal, mt hBoolean.mp (by decide)⟩

/-- Two is true as an integer, and no boolean as a text. -/
theorem forms_unlike :
    let number : Value := .integer .int32 (some ⟨2, by decide⟩)
    let word : Value := .text (some "2")
    number.IsForm 2 ∧ word.IsForm 2 ∧ boolean.ofValue number = .ok true ∧
      boolean.ofValue word = .error (.mismatch word .boolean) :=
  ⟨.integer _ rfl, .text, rfl, rfl⟩

end Ty

end SqlMapper
