import SqlMapper.Number.Power
import SqlMapper.Text.Hex

/-! Hexadecimal text. The digits of a number that has no more of them denote the number. -/
namespace SqlMapper.Text

/-- Every digit denotes its value. -/
theorem hexValue?_hexDigit {n : Nat} (h : n < 16) : hexValue? (hexDigit n) = some n := by
  have hAll : ∀ n : Fin 16, hexValue? (hexDigit n.val) = some n.val := by decide
  exact hAll ⟨n, h⟩

theorem exists_of_mem_hexDigits {width n : Nat} {c : Char} (h : c ∈ hexDigits width n) :
    ∃ m < 16, c = hexDigit m := by
  induction width generalizing n with
  | zero => simp [hexDigits] at h
  | succ width ih =>
      rcases List.mem_append.mp h with hHigh | hLow
      · exact ih hHigh
      · exact ⟨n % 16, Nat.mod_lt n (by decide), List.mem_singleton.mp hLow⟩

/-- Hexadecimal digits are read as the number they were written from. -/
theorem readHex?_hexDigits {width n : Nat} (h : n < twoTo (4 * width)) :
    readHex? (hexDigits width n) = some n := by
  induction width generalizing n with
  | zero =>
      obtain rfl : n = 0 := Nat.lt_one_iff.mp h
      rfl
  | succ width ih =>
      have hHigh : n / 16 < twoTo (4 * width) := by
        have hStep : twoTo (4 * (width + 1)) = twoTo (4 * width) * 16 := twoTo_add (4 * width) 4
        omega
      have hLow := hexValue?_hexDigit (Nat.mod_lt n (by decide : 0 < 16))
      have hRead := ih hHigh
      rw [readHex?] at hRead ⊢
      rw [hexDigits, List.foldlM_append, hRead]
      simp [hLow, Nat.div_add_mod]

end SqlMapper.Text
