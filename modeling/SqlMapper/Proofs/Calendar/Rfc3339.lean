import SqlMapper.Calendar.Rfc3339
import SqlMapper.Proofs.Calendar.Text
import SqlMapper.Proofs.Result

/-! Zoned timestamps as text. One that has an RFC 3339 text is read back with its instant and its
offset. -/
namespace SqlMapper.Zoned

open Numeral (padded)

/-! ### Parts -/

/-- A part of a fixed width is read back from its digits. -/
theorem part_padded {width n : Nat} [NeZero width] (h : n < tenTo width) (name : String)
    (rest : List Char) : part name width ((padded width n).toList ++ rest) = .ok (n, rest) := by
  rw [part, fixedDigits?_padded h]
  rfl

/-- A part with a limit is read back if it keeps to the limit. -/
theorem partUpTo_padded {limit n : Nat} (h : n ≤ limit) (hLimit : limit < tenTo 2) (name : String)
    (rest : List Char) : partUpTo name limit ((padded 2 n).toList ++ rest) = .ok (n, rest) := by
  have hPart := part_padded (Nat.lt_of_le_of_lt h hLimit) name rest
  rw [partUpTo, hPart]
  simp [bind, Except.bind, pure, Except.pure, h]

theorem fixed_self (c : Char) (rest : List Char) : fixed c (c :: rest) = .ok rest := by
  rw [fixed, literal?_self]
  rfl

theorem bounded_of_le {limit n : Nat} (h : n ≤ limit) (name : String) :
    bounded name limit n = .ok () := by
  rw [bounded, if_pos h]

/-- The fraction as it is written, if it is not zero. -/
def fractionPart (nanosecond : Nat) : List Char :=
  if nanosecond = 0 then [] else '.' :: (fractionText nanosecond).toList

def offsetPart (offset : Int) : List Char :=
  if offset = 0 then ['Z']
  else (if offset < 0 then '-' else '+') :: ((padded 2 (offset.natAbs / 3600)).toList ++ ':' ::
    (padded 2 (offset.natAbs / 60 % 60)).toList)

/-- A fraction is read back, and nothing is read where there is none. -/
theorem readFraction_part {n : Nat} (h : n < secondNanos) {rest : List Char}
    (hEnds : EndsDigits rest) (hPoint : rest.head? ≠ some '.') :
    readFraction (fractionPart n ++ rest) = .ok (n, rest) := by
  rw [fractionPart]
  split
  next hZero =>
    rw [List.nil_append, readFraction, hZero]
    rintro cs rfl
    exact hPoint rfl
  next =>
    have hLimit : (fractionText n).toList.length ≤ ((fractionText n).toList ++ rest).length := by
      simp
    rw [List.cons_append, readFraction, fraction?_fractionText h hLimit hEnds]
    rfl

/-- An offset of whole minutes below 24 hours is read back. -/
theorem readOffset_part {offset : Int} (hHour : offset.natAbs / 3600 ≤ 23)
    (hSecond : offset.natAbs % 60 = 0) : readOffset (offsetPart offset) = .ok (offset, []) := by
  rw [offsetPart]
  split
  next hZero =>
    rw [hZero]
    rfl
  next hOther =>
    have hMinute : offset.natAbs / 60 % 60 ≤ 59 := by omega
    have hMinuteLt : offset.natAbs / 60 % 60 < tenTo 2 := Nat.lt_of_le_of_lt hMinute (by decide)
    have hParts := partUpTo_padded hHour (by decide) "offset hour"
      (':' :: (padded 2 (offset.natAbs / 60 % 60)).toList)
    have hLast := part_padded hMinuteLt "offset minute" []
    rw [List.append_nil] at hLast
    have hSeconds : 3600 * ((offset.natAbs / 3600 : Nat) : Int) +
        60 * ((offset.natAbs / 60 % 60 : Nat) : Int) = offset.natAbs := by
      omega
    by_cases hNegative : offset < 0
    · have hSign : -(offset.natAbs : Int) = offset := by omega
      rw [if_pos hNegative, readOffset, if_neg (by decide), if_pos (by decide), hParts]
      simp only [bind, Except.bind, fixed_self, hLast, bounded_of_le hMinute, hSeconds, hSign, if_true]
    · have hSign : (offset.natAbs : Int) = offset := by omega
      rw [if_neg hNegative, readOffset, if_neg (by decide), if_pos (by decide), hParts]
      simp only [bind, Except.bind, fixed_self, hLast, bounded_of_le hMinute, hSeconds, hSign,
        Char.reduceEq, if_false]

theorem endsDigits_offsetPart (offset : Int) : EndsDigits (offsetPart offset) := by
  rw [offsetPart]
  split
  next =>
    intro c hc
    obtain rfl := Option.some.inj hc
    rfl
  next =>
    intro c hc
    obtain rfl := Option.some.inj hc
    split <;> rfl

theorem head?_offsetPart (offset : Int) : (offsetPart offset).head? ≠ some '.' := by
  rw [offsetPart]
  split
  next => decide
  next => split <;> simp

/-! ### Whole texts -/

variable {z : Zoned} {s : String}

/-- A reading has a text from year 0 on if its offset is one of whole minutes below 24 hours. -/
theorem rfc3339_eq_ok (h : z.rfc3339 = .ok s) :
    0 ≤ z.clock.date.year ∧ z.offset.natAbs / 3600 ≤ 23 ∧ z.offset.natAbs % 60 = 0 ∧
      s.toList = z.clock.date.text.toList ++ 'T' :: ((padded 2 z.clock.time.hour).toList ++ ':' ::
        ((padded 2 z.clock.time.minute).toList ++ ':' :: ((padded 2 z.clock.time.second).toList ++
          (fractionPart z.clock.time.nanosecond ++ offsetPart z.offset)))) := by
  rw [rfc3339] at h
  split at h
  next => simp at h
  next hYear =>
    split at h
    next => simp at h
    next hHour =>
      split at h
      next => simp at h
      next hSecond =>
        obtain rfl := Except.ok.inj h
        refine ⟨by omega, by omega, by omega, ?_⟩
        rw [fractionPart, offsetPart]
        by_cases hFraction : z.clock.time.nanosecond = 0 <;> by_cases hZero : z.offset = 0 <;>
          by_cases hNegative : z.offset < 0 <;> simp [hFraction, hZero, hNegative]

/-- The reading that a text was written of is the one that it denotes. -/
theorem readRfc3339_rfc3339 (h : z.rfc3339 = .ok s) : readRfc3339 s = .ok z := by
  obtain ⟨hFirst, hOffsetHour, hOffsetSecond, hText⟩ := rfc3339_eq_ok h
  obtain ⟨⟨date, time⟩, offset, hOffset⟩ := z
  dsimp only at hFirst hOffsetHour hOffsetSecond hText
  have hSign : date.text.toList = date.unsignedText := by
    rw [Date.toList_text, if_neg (by omega), List.nil_append]
  have hYear : (date.year.natAbs : Int) = date.year := by omega
  have hMonthFirst : ¬ (date.month < 1 ∨ 12 < date.month) := by
    have hBounds := date.month_bounds
    omega
  obtain ⟨hHour, hMinute, hSecond, hNano⟩ := time.isTime
  have hFraction := readFraction_part hNano (endsDigits_offsetPart offset) (head?_offsetPart offset)
  have hNoLeap : (time.second == 60) = false := by
    rw [beq_eq_false_iff_ne]
    omega
  have hDate : Date.of? date.year.natAbs date.month date.day = some date := by
    rw [hYear, Date.of?_self]
  have hZoned : of? ⟨date, time⟩ offset = some ⟨⟨date, time⟩, offset, hOffset⟩ := dif_pos hOffset
  rw [readRfc3339, hText, hSign]
  simp only [Date.unsignedText, List.append_assoc, List.cons_append, part_padded date.year_lt,
    part_padded date.month_lt, part_padded date.day_lt, part_padded time.hour_lt,
    part_padded time.minute_lt, part_padded time.second_lt, fixed_self, hFraction,
    readOffset_part hOffsetHour hOffsetSecond, bind, Except.bind, if_neg hMonthFirst]
  simp only [pure, Except.pure, hDate, hZoned, hNoLeap, bounded_of_le (Nat.le_of_lt_succ hHour),
    bounded_of_le (Nat.le_of_lt_succ hMinute), bounded_of_le (Nat.le_of_lt_succ hSecond),
    Time.of?_self, Option.elim_some, List.isEmpty_nil, Bool.not_true, Bool.not_false, Bool.false_and,
    Bool.false_eq_true, Char.reduceToNat, Nat.reduceLT, if_true, if_false]

/-- A fraction has no blanks. -/
theorem solid_fractionPart {n : Nat} (h : n < secondNanos) : Text.Solid (fractionPart n) := by
  rw [fractionPart]
  split
  next => exact Text.solid_nil
  next => exact .cons rfl (digits_fractionText h).solid

/-- An offset has no blanks. -/
theorem solid_offsetPart (offset : Int) : Text.Solid (offsetPart offset) := by
  have hHour := (Numeral.digits_padded 2 (offset.natAbs / 3600)).solid
  have hMinute := (Numeral.digits_padded 2 (offset.natAbs / 60 % 60)).solid
  rw [offsetPart]
  split
  next => exact .cons rfl Text.solid_nil
  next => exact .cons (by split <;> rfl) (hHour.append (.cons rfl hMinute))

/-- The text of a zoned timestamp has no blanks around it. -/
theorem trim_rfc3339 (h : z.rfc3339 = .ok s) : Text.trim s = s := by
  obtain ⟨-, -, -, hText⟩ := rfc3339_eq_ok h
  obtain ⟨-, -, -, hNano⟩ := z.clock.time.isTime
  have hHour := (Numeral.digits_padded 2 z.clock.time.hour).solid
  have hMinute := (Numeral.digits_padded 2 z.clock.time.minute).solid
  have hSecond := (Numeral.digits_padded 2 z.clock.time.second).solid
  have hEnd := (solid_fractionPart hNano).append (solid_offsetPart z.offset)
  apply Text.trim_of_solid
  rw [hText]
  exact z.clock.date.solid_text.append (.cons rfl (hHour.append (.cons rfl
    (hMinute.append (.cons rfl (hSecond.append hEnd))))))

end SqlMapper.Zoned
