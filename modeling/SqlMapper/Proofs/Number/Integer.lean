import SqlMapper.Proofs.Number.Numeral
import SqlMapper.Proofs.Result

/-! Integers as text. A text that denotes a number is read as this number if the kind holds it, and
else refused at the side on which it leaves the kind. No other text is read. -/
namespace SqlMapper.Numeral

variable {k : IntegerKind} {limit value v : Nat} {beyond : NumeralError} {cs : List Char} {n : Int}

/-- The text denotes the number: digits, behind a sign or not. A minus sign needs a kind with negative
numbers. -/
inductive Denotes (k : IntegerKind) : List Char → Int → Prop
  | bare {ds : List Char} (h : Digits ds) (hSome : ds ≠ []) : Denotes k ds (Nat.ofDigitChars 10 ds 0)
  | plus {ds : List Char} (h : Digits ds) (hSome : ds ≠ []) :
      Denotes k ('+' :: ds) (Nat.ofDigitChars 10 ds 0)
  | minus {ds : List Char} (hSigned : k.signed = true) (h : Digits ds) (hSome : ds ≠ []) :
      Denotes k ('-' :: ds) (-Nat.ofDigitChars 10 ds 0)

theorem Denotes.ne_nil (h : Denotes k cs n) : cs ≠ [] := by
  cases h with
  | bare _ hSome => exact hSome
  | plus => exact List.cons_ne_nil _ _
  | minus => exact List.cons_ne_nil _ _

theorem Denotes.solid (h : Denotes k cs n) : Text.Solid cs := by
  cases h with
  | bare h => exact h.solid
  | plus h => exact .cons rfl h.solid
  | minus _ h => exact .cons rfl h.solid

/-- A text denotes at most one integer. -/
theorem Denotes.unique {m : Int} (h : Denotes k cs m) (hOther : Denotes k cs n) : m = n := by
  cases h with
  | bare h =>
      cases hOther with
      | bare => rfl
      | plus => exact absurd (h '+' (List.mem_cons_self ..)) (by decide)
      | minus => exact absurd (h '-' (List.mem_cons_self ..)) (by decide)
  | plus =>
      cases hOther with
      | bare h => exact absurd (h '+' (List.mem_cons_self ..)) (by decide)
      | plus => rfl
  | minus =>
      cases hOther with
      | bare h => exact absurd (h '-' (List.mem_cons_self ..)) (by decide)
      | minus => rfl

/-! ### Magnitudes -/

/-- Digits are read up to the limit, and refused behind it. -/
theorem readDigits_of_digits (h : Digits cs) (hValue : value ≤ limit) :
    readDigits limit beyond value cs =
      if Nat.ofDigitChars 10 cs value ≤ limit then .ok (Nat.ofDigitChars 10 cs value)
      else .error beyond := by
  induction cs generalizing value with
  | nil => rw [readDigits, Nat.ofDigitChars_nil, if_pos hValue]
  | cons c cs ih =>
      obtain ⟨hFirst, hRest⟩ := List.forall_mem_cons.mp h
      rw [readDigits, digit?_of_isDigit hFirst, Nat.ofDigitChars_cons]
      dsimp only
      split
      next hFits => exact ih hRest hFits
      next hBeyond =>
        -- Further digits only make the number larger.
        have hGrows := le_ofDigitChars cs (10 * value + (c.toNat - '0'.toNat))
        rw [if_neg (by omega)]

/-- Only digits are read. -/
theorem digits_of_readDigits (h : readDigits limit beyond value cs = .ok v) : Digits cs := by
  induction cs generalizing value with
  | nil => exact fun c hc => absurd hc List.not_mem_nil
  | cons c cs ih =>
      rw [readDigits, digit?] at h
      cases hDigit : c.isDigit with
      | false => simp [hDigit] at h
      | true =>
          rw [hDigit, if_pos rfl] at h
          dsimp only at h
          split at h
          next => exact List.forall_mem_cons.mpr ⟨hDigit, ih h⟩
          next => cases h

/-- One digit or more is read up to the limit, and refused behind it. -/
theorem readMagnitude_of_digits (h : Digits cs) (hSome : cs ≠ []) :
    readMagnitude limit beyond cs =
      if Nat.ofDigitChars 10 cs 0 ≤ limit then .ok (Nat.ofDigitChars 10 cs 0)
      else .error beyond := by
  cases cs with
  | nil => exact absurd rfl hSome
  | cons c cs => exact readDigits_of_digits h (Nat.zero_le limit)

/-- What is read as a magnitude is one digit or more. -/
theorem digits_of_readMagnitude (h : readMagnitude limit beyond cs = .ok v) :
    Digits cs ∧ cs ≠ [] ∧ v = Nat.ofDigitChars 10 cs 0 := by
  cases cs with
  | nil => cases h
  | cons c cs =>
      have hDigits : Digits (c :: cs) := digits_of_readDigits h
      have hSome := List.cons_ne_nil c cs
      rw [readMagnitude_of_digits hDigits hSome] at h
      split at h
      next => exact ⟨hDigits, hSome, (Except.ok.inj h).symm⟩
      next => cases h

/-! ### Whole texts -/

/-- A kind holds a magnitude up to its greatest integer. -/
theorem holds_natCast_iff : k.Holds v ↔ v ≤ k.greatest.toNat := by
  cases k <;> simp only [IntegerKind.Holds, IntegerKind.least, IntegerKind.greatest] <;> omega

/-- A kind holds a negated magnitude down to its least integer. -/
theorem holds_neg_iff : k.Holds (-(v : Int)) ↔ v ≤ (-k.least).toNat := by
  cases k <;> simp only [IntegerKind.Holds, IntegerKind.least, IntegerKind.greatest] <;> omega

theorem readInt_digit {c : Char} (h : c.isDigit = true) (cs : List Char) :
    readInt k (c :: cs) = (readMagnitude k.greatest.toNat .tooLarge (c :: cs)).map Int.ofNat := by
  unfold readInt
  split
  next hNil => cases hNil
  next hPlus =>
    obtain rfl := (List.cons.inj hPlus).1
    exact absurd h (by decide)
  next hMinus =>
    obtain rfl := (List.cons.inj hMinus).1
    exact absurd h (by decide)
  next hEq => rw [hEq]

/-- Where a text that denotes a number leaves the kind. -/
def beyondOf (n : Int) : NumeralError := if n < 0 then .tooSmall else .tooLarge

theorem map_magnitude (h : Digits cs) (hSome : cs ≠ []) :
    (readMagnitude k.greatest.toNat .tooLarge cs).map Int.ofNat =
      if k.Holds (Nat.ofDigitChars 10 cs 0) then .ok (Nat.ofDigitChars 10 cs 0 : Int)
      else .error (beyondOf (Nat.ofDigitChars 10 cs 0)) := by
  rw [readMagnitude_of_digits h hSome]
  split
  next hFits => rw [if_pos (holds_natCast_iff.mpr hFits)]; rfl
  next hBeyond =>
    rw [if_neg (mt holds_natCast_iff.mp hBeyond), beyondOf, if_neg (by omega)]
    rfl

/-- A text that denotes an integer is read as it where the kind holds it. -/
theorem readInt_of_denotes (h : Denotes k cs n) :
    readInt k cs = if k.Holds n then .ok n else .error (beyondOf n) := by
  cases h with
  | bare h hSome =>
      cases cs with
      | nil => exact absurd rfl hSome
      | cons c cs => exact (readInt_digit (h c (List.mem_cons_self ..)) cs).trans (map_magnitude h hSome)
  | plus h hSome => exact map_magnitude h hSome
  | @minus ds hSigned h hSome =>
      rw [readInt, if_pos hSigned, readMagnitude_of_digits h hSome]
      split
      next hFits =>
        rw [if_pos (holds_neg_iff.mpr hFits)]
        rfl
      next hBeyond =>
        have hNegative : -(Nat.ofDigitChars 10 ds 0 : Int) < 0 := by omega
        rw [if_neg (mt holds_neg_iff.mp hBeyond), beyondOf, if_pos hNegative]
        rfl

theorem digits_of_map_magnitude {sign : Nat → Int}
    (h : (readMagnitude limit beyond cs).map sign = .ok n) :
    Digits cs ∧ cs ≠ [] ∧ sign (Nat.ofDigitChars 10 cs 0) = n := by
  obtain ⟨v, hRead, hSign⟩ := Result.map_eq_ok_iff.mp h
  obtain ⟨hDigits, hSome, hValue⟩ := digits_of_readMagnitude hRead
  exact ⟨hDigits, hSome, hValue ▸ hSign⟩

/-- What is read is denoted by the text. -/
theorem denotes_of_readInt (h : readInt k cs = .ok n) : Denotes k cs n := by
  unfold readInt at h
  split at h
  next => cases h
  next =>
    obtain ⟨hDigits, hSome, rfl⟩ := digits_of_map_magnitude h
    exact .plus hDigits hSome
  next =>
    split at h
    next hSigned =>
      obtain ⟨hDigits, hSome, rfl⟩ := digits_of_map_magnitude h
      exact .minus hSigned hDigits hSome
    next => cases h
  next =>
    obtain ⟨hDigits, hSome, rfl⟩ := digits_of_map_magnitude h
    exact .bare hDigits hSome

variable {s : String} {x : Integer k}

/-- Reading gives the integer of the kind, or says on which side it overran. -/
theorem read_of_denotes (h : Denotes k s.toList n) :
    read k s = (Integer.ofInt? k n).elim (.error (beyondOf n)) .ok := by
  rw [read, readInt_of_denotes h]
  cases hInt : Integer.ofInt? k n with
  | none =>
      rw [if_neg (Integer.ofInt?_eq_none_iff.mp hInt)]
      rfl
  | some x =>
      have hVal := Integer.ofInt?_eq_some_iff.mp hInt
      rw [if_pos (hVal ▸ x.holds)]
      dsimp only
      rw [hInt]
      rfl

/-- A text is read as an integer of the kind if it denotes this integer, and in no other case. -/
theorem read_eq_ok_iff : read k s = .ok x ↔ Denotes k s.toList x.val := by
  constructor
  · intro h
    rw [read] at h
    split at h
    next => cases h
    next n hRead =>
      split at h
      next y hInt =>
        obtain rfl := Except.ok.inj h
        rw [Integer.ofInt?_eq_some_iff.mp hInt]
        exact denotes_of_readInt hRead
      next => cases h
  · intro h
    rw [read_of_denotes h, Integer.ofInt?_val]
    rfl

end SqlMapper.Numeral
