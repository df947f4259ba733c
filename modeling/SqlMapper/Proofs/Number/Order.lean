import SqlMapper.Proofs.Number.Numeral
import SqlMapper.Proofs.Text.Order

/-! Digits in the order of their values. Numbers that are padded to one width are in the order of
their texts. -/
namespace SqlMapper.Numeral

open Text (ordering_eq compare_append)

variable {cs ds : List Char} {c d : Char}

/-- The codes of the digits are those from 48 to 57. -/
theorem bounds_of_isDigit (h : c.isDigit = true) : 48 ≤ c.toNat ∧ c.toNat ≤ 57 := by
  simpa [Char.isDigit, UInt32.le_iff_toNat_le] using h

theorem Digits.ascii (h : Digits ds) : Text.Ascii ds := by
  intro c hc
  have hDigit := bounds_of_isDigit (h c hc)
  omega

theorem Digits.cons_iff : Digits (c :: ds) ↔ c.isDigit = true ∧ Digits ds := List.forall_mem_cons

/-- The values of texts of one length are in the order of what stands before them, then in that of
their digits. -/
theorem compare_ofDigitChars (hc : Digits cs) (hd : Digits ds) (h : cs.length = ds.length)
    (u v : Nat) : compare (Nat.ofDigitChars 10 cs u) (Nat.ofDigitChars 10 ds v) =
      (compare u v).then (compare cs ds) := by
  induction cs generalizing ds u v with
  | nil =>
      obtain rfl := List.eq_nil_of_length_eq_zero h.symm
      exact Ordering.then_eq.symm
  | cons c cs ih =>
      cases ds with
      | nil => simp at h
      | cons d ds =>
          rw [Digits.cons_iff] at hc hd
          have hFirst := bounds_of_isDigit hc.1
          have hOther := bounds_of_isDigit hd.1
          have hStep : compare (10 * u + (c.toNat - '0'.toNat)) (10 * v + (d.toNat - '0'.toNat)) =
              (compare u v).then (compare c d) := by
            rw [Text.compare_toNat]
            have hZero : '0'.toNat = 48 := rfl
            apply ordering_eq <;>
              simp only [Ordering.then_eq_lt, Ordering.then_eq_gt, Nat.compare_eq_lt,
                Nat.compare_eq_gt, Nat.compare_eq_eq] <;> omega
          rw [Nat.ofDigitChars_cons, Nat.ofDigitChars_cons, ih hc.2 hd.2 (Nat.succ.inj h), hStep,
            List.compare_cons_cons, Ordering.then_assoc]

/-- Numbers that are padded to one width are in the order of their texts. -/
theorem compare_padded {width m n : Nat} [NeZero width] (hm : m < tenTo width)
    (hn : n < tenTo width) :
    compare (padded width m).toList (padded width n).toList = compare m n := by
  have hLength := (length_padded hm).trans (length_padded hn).symm
  have hValues := compare_ofDigitChars (digits_padded width m) (digits_padded width n) hLength 0 0
  rw [ofDigitChars_padded, ofDigitChars_padded, Std.compare_self, Ordering.eq_then] at hValues
  exact hValues.symm

/-- Padded numerals compare as their numbers, and what follows decides only a tie. -/
theorem compare_padded_append {width m n : Nat} [NeZero width] (hm : m < tenTo width)
    (hn : n < tenTo width) (cs ds : List Char) :
    compare ((padded width m).toList ++ cs) ((padded width n).toList ++ ds) =
      (compare m n).then (compare cs ds) := by
  rw [compare_append ((length_padded hm).trans (length_padded hn).symm), compare_padded hm hn]

end SqlMapper.Numeral
