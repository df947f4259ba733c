import Mathlib.Algebra.GroupWithZero.Nat
import SqlMapper.Number.Numeral
import SqlMapper.Number.Power
import SqlMapper.Proofs.Text.Blank

/-! Numbers in base ten. Digits that are written with leading zeros are as many as they have to be,
and their value is the number. -/
namespace SqlMapper.Numeral

variable {width n : Nat} {ds : List Char}

def Digits (ds : List Char) : Prop := ∀ c ∈ ds, c.isDigit = true

instance (ds : List Char) : Decidable (Digits ds) := List.decidableBAll _ ds

/-- Digits are no blanks. -/
theorem Digits.solid (h : Digits ds) : Text.Solid ds :=
  fun c hc => Text.isBlank_of_isDigit (h c hc)

theorem digit?_of_isDigit {c : Char} (h : c.isDigit = true) : digit? c = some (c.toNat - '0'.toNat) := by
  rw [digit?, if_pos h]

/-- Folding over digits computes the number they spell. -/
theorem foldl_digits (h : Digits ds) (value : Nat) :
    ds.foldl (fun v c => 10 * v + (digit? c).getD 0) value = Nat.ofDigitChars 10 ds value := by
  induction ds generalizing value with
  | nil => rfl
  | cons c ds ih =>
      have hDigit := digit?_of_isDigit (h c (List.mem_cons_self ..))
      rw [List.foldl_cons, ih fun d hd => h d (List.mem_cons_of_mem _ hd), Nat.ofDigitChars_cons, hDigit]
      rfl

/-- Further digits never make a number smaller. -/
theorem le_ofDigitChars (ds : List Char) (value : Nat) : value ≤ Nat.ofDigitChars 10 ds value := by
  induction ds generalizing value with
  | nil => exact Nat.le_refl value
  | cons c ds ih =>
      have hLater := ih (10 * value + (c.toNat - '0'.toNat))
      rw [Nat.ofDigitChars_cons]
      omega

/-- A padded numeral is the numeral behind zeros. -/
theorem toList_padded (width n : Nat) : (padded width n).toList =
    List.replicate (width - (Nat.toDigits 10 n).length) '0' ++ Nat.toDigits 10 n := by
  rw [padded, String.toList_ofList]

theorem digits_toDigits (n : Nat) : Digits (Nat.toDigits 10 n) :=
  fun _ hc => Nat.isDigit_of_mem_toDigits (by decide) (by decide) hc

theorem digits_zeros (n : Nat) : Digits (List.replicate n '0') := by
  intro c hc
  obtain rfl := (List.mem_replicate.mp hc).2
  rfl

theorem Digits.append {cs : List Char} (h : Digits cs) (hd : Digits ds) : Digits (cs ++ ds) :=
  List.forall_mem_append.mpr ⟨h, hd⟩

theorem Digits.take (h : Digits ds) (n : Nat) : Digits (ds.take n) :=
  fun c hc => h c (List.mem_of_mem_take hc)

theorem Digits.drop (h : Digits ds) (n : Nat) : Digits (ds.drop n) :=
  fun c hc => h c (List.mem_of_mem_drop hc)

/-- A padded numeral consists of digits. -/
theorem digits_padded (width n : Nat) : Digits (padded width n).toList := by
  rw [toList_padded]
  exact (digits_zeros _).append (digits_toDigits n)

theorem padded_ne_nil (width n : Nat) : (padded width n).toList ≠ [] := by
  simp [toList_padded]

/-- What begins with a padded numeral begins with a digit. -/
theorem isDigit_head_padded (width n : Nat) (rest : List Char) :
    ∀ c ∈ ((padded width n).toList ++ rest).head?, c.isDigit = true := by
  intro c hc
  rw [List.head?_append, List.head?_eq_some_head (padded_ne_nil width n), Option.some_or] at hc
  obtain rfl := Option.some.inj hc
  exact digits_padded width n _ (List.head_mem _)

/-- A padded numeral spells its number. -/
theorem ofDigitChars_padded (width n : Nat) : Nat.ofDigitChars 10 (padded width n).toList 0 = n := by
  rw [toList_padded, Nat.ofDigitChars_append, Nat.ofDigitChars_replicate_zero, Nat.mul_zero,
    Nat.ofDigitChars_ten_toDigits]

/-- A padded numeral is at least as wide as asked. -/
theorem le_length_padded (width n : Nat) : width ≤ (padded width n).toList.length := by
  rw [toList_padded, List.length_append, List.length_replicate]
  omega

/-- A number of few enough digits is padded to exactly the width asked. -/
theorem length_padded [NeZero width] (h : n < tenTo width) :
    (padded width n).toList.length = width := by
  have hDigits := (Nat.length_toDigits_le_iff (by decide) (Nat.pos_of_ne_zero (NeZero.ne width))).mpr h
  rw [toList_padded, List.length_append, List.length_replicate]
  omega

end SqlMapper.Numeral
