import SqlMapper.Proofs.Calendar.Instant
import SqlMapper.Proofs.Calendar.Rfc3339
import SqlMapper.Proofs.Number.Order

/-! Dates and times in the order of their texts. Texts of the layout for storage are in the order of
the calendar and the clock, because every time has a fraction and nothing stands behind it. RFC 3339
leaves out a fraction of zero and ends with a letter, so that a fraction that goes on where another
one ends stands before it. -/
namespace SqlMapper

open Numeral (Digits padded compare_padded compare_padded_append digits_padded)
open Text (ordering_eq compare_append compare_cons_self)

/-! ### Fractions -/

/-- The digits of a fraction of a second without zeros at the end, none for zero. -/
def fractionDigits (nanosecond : Nat) : List Char :=
  ((padded 9 nanosecond).toList.reverse.dropWhile (· == '0')).reverse

/-- No zero stands at the end. -/
def Trimmed (ds : List Char) : Prop := ds.getLast? ≠ some '0'

theorem Trimmed.tail {d : Char} {ds : List Char} (h : Trimmed (d :: ds)) : Trimmed ds := by
  cases ds with
  | nil => simp [Trimmed]
  | cons e ds => simpa [Trimmed] using h

theorem Trimmed.ne_nil {ds : List Char} (h : Trimmed ('0' :: ds)) : ds ≠ [] := by
  rintro rfl
  simp [Trimmed] at h

/-- The digits of a fraction do not end with a zero. -/
theorem trimmed_fractionDigits (n : Nat) : Trimmed (fractionDigits n) := by
  intro hLast
  have hDropped := List.head?_dropWhile_not (· == '0') (padded 9 n).toList.reverse
  rw [fractionDigits, List.getLast?_reverse] at hLast
  rw [hLast] at hDropped
  simp at hDropped

theorem digits_fractionDigits (n : Nat) : Digits (fractionDigits n) := by
  intro c hc
  have hDropped := (List.dropWhile_sublist _).subset (List.mem_reverse.mp hc)
  exact Numeral.digits_padded 9 n c (List.mem_reverse.mp hDropped)

/-- With zeros behind them the digits of a fraction are those of its nanoseconds. -/
theorem exists_fractionDigits {n : Nat} (h : n < secondNanos) :
    ∃ k, (padded 9 n).toList = fractionDigits n ++ List.replicate k '0' ∧
      (fractionDigits n).length + k = 9 := by
  have hLength : (padded 9 n).toList.length = 9 := Numeral.length_padded h
  obtain ⟨k, hZeros⟩ := exists_zeros (padded 9 n).toList
  refine ⟨k, hZeros, ?_⟩
  rwa [hZeros, List.length_append, List.length_replicate] at hLength

theorem compare_zero_digit {d : Char} (h : d.isDigit = true) (hd : d ≠ '0') :
    compare '0' d = .lt := by
  have hBounds := Numeral.bounds_of_isDigit h
  have hOther : d.toNat ≠ '0'.toNat := mt Char.toNat_inj.mp hd
  rw [Text.compare_toNat, Nat.compare_eq_lt]
  change 48 < d.toNat
  change d.toNat ≠ 48 at hOther
  omega

/-- Digits without zeros at the end are more than zeros. -/
theorem compare_zeros {ds : List Char} (hDigits : Digits ds) (h : Trimmed ds) (hSome : ds ≠ [])
    (l : Nat) :
    compare (List.replicate (ds.length + l) '0') (ds ++ List.replicate l '0') = .lt := by
  induction ds with
  | nil => exact absurd rfl hSome
  | cons d ds ih =>
      rw [Numeral.Digits.cons_iff] at hDigits
      have hLength : (d :: ds).length + l = (ds.length + l) + 1 := by
        rw [List.length_cons]
        omega
      rw [hLength, List.replicate_succ, List.cons_append, List.compare_cons_cons]
      by_cases hd : d = '0'
      · subst hd
        rw [Std.compare_self, Ordering.eq_then]
        exact ih hDigits.2 h.tail h.ne_nil
      · rw [compare_zero_digit hDigits.1 hd]
        rfl

/-- Zeros behind digits that do not end with zeros do not change the order. -/
theorem compare_append_zeros {ds es : List Char} (hd : Digits ds) (he : Digits es)
    (hdTrim : Trimmed ds) (heTrim : Trimmed es) {k l : Nat} (h : ds.length + k = es.length + l) :
    compare (ds ++ List.replicate k '0') (es ++ List.replicate l '0') = compare ds es := by
  induction ds generalizing es with
  | nil =>
      cases es with
      | nil =>
          obtain rfl : k = l := by simpa using h
          exact Std.compare_self
      | cons e es =>
          obtain rfl : k = (e :: es).length + l := by simpa using h
          exact compare_zeros he heTrim (List.cons_ne_nil e es) l
  | cons d ds ih =>
      cases es with
      | nil =>
          obtain rfl : l = (d :: ds).length + k := by simpa using h.symm
          rw [Std.OrientedOrd.eq_swap, List.nil_append,
            compare_zeros hd hdTrim (List.cons_ne_nil d ds) k]
          rfl
      | cons e es =>
          rw [Numeral.Digits.cons_iff] at hd he
          rw [List.cons_append, List.cons_append, List.compare_cons_cons, List.compare_cons_cons,
            ih hd.2 he.2 hdTrim.tail heTrim.tail (by simpa [Nat.add_right_comm] using h)]

/-- Fractions without zeros at their ends are sorted as the numbers are. -/
theorem compare_fractionDigits {m n : Nat} (hm : m < secondNanos) (hn : n < secondNanos) :
    compare (fractionDigits m) (fractionDigits n) = compare m n := by
  obtain ⟨k, hPadded, hLength⟩ := exists_fractionDigits hm
  obtain ⟨l, hPadded', hLength'⟩ := exists_fractionDigits hn
  have hZeros := compare_append_zeros (digits_fractionDigits m) (digits_fractionDigits n)
    (trimmed_fractionDigits m) (trimmed_fractionDigits n) (hLength.trans hLength'.symm)
  rw [← hZeros, ← hPadded, ← hPadded', compare_padded hm hn]

theorem fractionDigits_zero : fractionDigits 0 = [] := by decide

/-- Only the fraction zero has no digits. -/
theorem fractionDigits_eq_nil_iff {n : Nat} (h : n < secondNanos) :
    fractionDigits n = [] ↔ n = 0 := by
  have hZero := compare_fractionDigits h (n := 0) (by decide)
  rw [fractionDigits_zero] at hZero
  constructor
  · intro hNil
    rw [hNil, Std.compare_self] at hZero
    exact Nat.compare_eq_eq.mp hZero.symm
  · rintro rfl
    exact fractionDigits_zero

theorem toList_fractionText (n : Nat) :
    (fractionText n).toList = if (fractionDigits n).isEmpty then ['0'] else fractionDigits n := by
  change (if (fractionDigits n).isEmpty then "0" else String.ofList (fractionDigits n)).toList = _
  split
  · rfl
  · exact String.toList_ofList

/-- The digit that stands for no fraction is sorted before all other fractions. -/
theorem compare_zero_fraction {n : Nat} (h : n < secondNanos) (hn : n ≠ 0) :
    compare ['0'] (fractionDigits n) = .lt := by
  have hDigits := digits_fractionDigits n
  have hTrim := trimmed_fractionDigits n
  have hSome := mt (fractionDigits_eq_nil_iff h).mp hn
  cases hFraction : fractionDigits n with
  | nil => exact absurd hFraction hSome
  | cons d ds =>
      rw [hFraction] at hDigits hTrim
      rw [List.compare_cons_cons]
      by_cases hd : d = '0'
      · subst hd
        rw [Std.compare_self, Ordering.eq_then]
        cases ds with
        | nil => exact absurd rfl hTrim.ne_nil
        | cons e es => rfl
      · rw [compare_zero_digit (hDigits d (List.mem_cons_self ..)) hd]
        rfl

/-- Fractions are in the order of their texts. -/
theorem compare_fractionText {m n : Nat} (hm : m < secondNanos) (hn : n < secondNanos) :
    compare (fractionText m).toList (fractionText n).toList = compare m n := by
  simp only [toList_fractionText, List.isEmpty_iff, fractionDigits_eq_nil_iff, hm, hn]
  split
  next hZero =>
    split
    next hBoth => rw [hZero, hBoth, Std.compare_self, Std.compare_self]
    next hOther =>
      rw [compare_zero_fraction hn hOther, eq_comm, Nat.compare_eq_lt]
      omega
  next hSome =>
    split
    next hZero =>
      rw [Std.OrientedOrd.eq_swap, compare_zero_fraction hm hSome, eq_comm]
      change compare m n = .gt
      rw [Nat.compare_eq_gt]
      omega
    next => exact compare_fractionDigits hm hn

/-! ### Dates and times -/

namespace Date

variable {d e : Date}

theorem toList_text_of_nonneg (h : 0 ≤ d.year) : d.text.toList = d.unsignedText := by
  rw [toList_text, if_neg (by omega), List.nil_append]

theorem length_text (h : 0 ≤ d.year) : d.text.toList.length = 10 := by
  simp only [toList_text_of_nonneg h, unsignedText, List.length_append, List.length_cons,
    Numeral.length_padded d.year_lt, Numeral.length_padded d.month_lt,
    Numeral.length_padded d.day_lt]

/-- The text of a date has ASCII letters only. -/
theorem ascii_text (d : Date) : Text.Ascii d.text.toList := by
  have hSign : Text.Ascii (if d.year < 0 then ['-'] else []) := by
    split
    · exact .cons (by decide) Text.ascii_nil
    · exact Text.ascii_nil
  have hMonth := (digits_padded 2 d.month).ascii.append
    (.cons (c := '-') (by decide) (digits_padded 2 d.day).ascii)
  rw [toList_text]
  exact hSign.append ((digits_padded 4 d.year.natAbs).ascii.append (.cons (by decide) hMonth))

/-- Dates are in the order of year, month and day. -/
theorem compare_dayNumber (d e : Date) : compare d.dayNumber e.dayNumber =
    (compare d.year e.year).then ((compare d.month e.month).then (compare d.day e.day)) := by
  apply ordering_eq
  · simp only [Int.compare_eq_lt, dayNumber_lt_iff, Precedes, Ordering.then_eq_lt,
      Nat.compare_eq_lt, Nat.compare_eq_eq, Int.compare_eq_eq]
  · simp only [Int.compare_eq_gt, dayNumber_lt_iff, Precedes, Ordering.then_eq_gt,
      Nat.compare_eq_gt, Nat.compare_eq_eq, Int.compare_eq_eq, eq_comm (a := e.year),
      eq_comm (a := e.month)]

/-- The texts of dates from year 0 on are sorted as the dates are. -/
theorem compare_text (hd : 0 ≤ d.year) (he : 0 ≤ e.year) :
    compare d.text.toList e.text.toList = compare d.dayNumber e.dayNumber := by
  have hYear : compare d.year.natAbs e.year.natAbs = compare d.year e.year := by
    apply ordering_eq <;> simp only [Nat.compare_eq_lt, Nat.compare_eq_gt, Int.compare_eq_lt,
      Int.compare_eq_gt] <;> omega
  rw [toList_text_of_nonneg hd, toList_text_of_nonneg he, compare_dayNumber, ← hYear]
  simp only [unsignedText, compare_padded_append d.year_lt e.year_lt, compare_cons_self,
    compare_padded_append d.month_lt e.month_lt, compare_padded d.day_lt e.day_lt]

end Date

namespace Time

variable (s t : Time)

/-- Nanoseconds since midnight. -/
def nanoseconds (t : Time) : Nat := t.seconds * secondNanos + t.nanosecond

/-- Times of a day are compared hour by hour, then minute by minute, then second by second. -/
theorem compare_seconds : compare s.seconds t.seconds =
    (compare s.hour t.hour).then
      ((compare s.minute t.minute).then (compare s.second t.second)) := by
  obtain ⟨-, hMinute, hSecond, -⟩ := s.isTime
  obtain ⟨-, hMinute', hSecond', -⟩ := t.isTime
  unfold seconds
  apply ordering_eq <;>
    simp only [Ordering.then_eq_lt, Ordering.then_eq_gt, Nat.compare_eq_lt, Nat.compare_eq_gt,
      Nat.compare_eq_eq] <;> omega

/-- Times are compared by their seconds first and then by their fractions. -/
theorem compare_nanoseconds : compare s.nanoseconds t.nanoseconds =
    (compare s.seconds t.seconds).then (compare s.nanosecond t.nanosecond) := by
  have hNano := s.isTime.2.2.2
  have hNano' := t.isTime.2.2.2
  unfold nanoseconds
  unfold secondNanos at *
  apply ordering_eq <;>
    simp only [Ordering.then_eq_lt, Ordering.then_eq_gt, Nat.compare_eq_lt, Nat.compare_eq_gt,
      Nat.compare_eq_eq] <;> omega

/-- Times of day are in the order of their texts up to the second, then of what follows. -/
theorem compare_clock (cs ds : List Char) :
    compare ((padded 2 s.hour).toList ++ ':' :: ((padded 2 s.minute).toList ++ ':' ::
        ((padded 2 s.second).toList ++ cs)))
      ((padded 2 t.hour).toList ++ ':' :: ((padded 2 t.minute).toList ++ ':' ::
        ((padded 2 t.second).toList ++ ds))) =
      (compare s.seconds t.seconds).then (compare cs ds) := by
  simp only [compare_padded_append s.hour_lt t.hour_lt, compare_cons_self, compare_seconds,
    compare_padded_append s.minute_lt t.minute_lt, compare_padded_append s.second_lt t.second_lt,
    Ordering.then_assoc]

theorem ascii_clock {cs : List Char} (h : Text.Ascii cs) (t : Time) :
    Text.Ascii ((padded 2 t.hour).toList ++ ':' :: ((padded 2 t.minute).toList ++ ':' ::
      ((padded 2 t.second).toList ++ cs))) := by
  have hSecond := (digits_padded 2 t.second).ascii.append h
  have hMinute := (digits_padded 2 t.minute).ascii.append (.cons (c := ':') (by decide) hSecond)
  exact (digits_padded 2 t.hour).ascii.append (.cons (by decide) hMinute)

/-- The text of a time has ASCII letters only. -/
theorem ascii_text : Text.Ascii t.text.toList := by
  rw [toList_text]
  exact ascii_clock (.cons (by decide) (digits_fractionText t.isTime.2.2.2).ascii) t

/-- The texts of times are sorted as the times are. -/
theorem compare_text :
    compare s.text.toList t.text.toList = compare s.nanoseconds t.nanoseconds := by
  rw [toList_text, toList_text, compare_clock, compare_cons_self,
    compare_fractionText s.isTime.2.2.2 t.isTime.2.2.2, compare_nanoseconds]

end Time

namespace Timestamp

variable {s t : Timestamp}

/-- Timestamps are compared by their dates first and then by their times. -/
theorem compare_instant (s t : Timestamp) : compare s.instant t.instant =
    (compare s.date.dayNumber t.date.dayNumber).then
      (compare s.time.nanoseconds t.time.nanoseconds) := by
  have hClock := s.time.seconds_lt
  have hClock' := t.time.seconds_lt
  have hNano := s.time.isTime.2.2.2
  have hNano' := t.time.isTime.2.2.2
  unfold instant Time.nanoseconds
  unfold daySeconds secondNanos at *
  apply ordering_eq <;>
    simp only [Ordering.then_eq_lt, Ordering.then_eq_gt, Nat.compare_eq_lt, Nat.compare_eq_gt,
      Int.compare_eq_lt, Int.compare_eq_gt, Int.compare_eq_eq] <;> omega

/-- The text of a timestamp has ASCII letters only. -/
theorem ascii_text (t : Timestamp) : Text.Ascii t.text.toList := by
  rw [toList_text]
  exact t.date.ascii_text.append (.cons (by decide) t.time.ascii_text)

/-- The texts of timestamps from year 0 on are sorted as the timestamps are. -/
theorem compare_text (hs : 0 ≤ s.date.year) (ht : 0 ≤ t.date.year) :
    compare s.text.toList t.text.toList = compare s.instant t.instant := by
  rw [toList_text, toList_text,
    compare_append ((Date.length_text hs).trans (Date.length_text ht).symm), compare_cons_self,
    Date.compare_text hs ht, Time.compare_text, compare_instant]

end Timestamp

/-! ### Zoned timestamps -/

namespace Zoned

variable {m n : Nat} {z w : Zoned}

/-- A fraction is left out where it is zero, with its point. -/
theorem fractionPart_eq (h : n < secondNanos) :
    fractionPart n = if n = 0 then [] else '.' :: fractionDigits n := by
  rw [fractionPart]
  split
  next => rfl
  next hSome =>
    have hDigits : (fractionDigits n).isEmpty = false := by
      simpa using mt (fractionDigits_eq_nil_iff h).mp hSome
    rw [toList_fractionText, hDigits, if_neg Bool.false_ne_true]

/-- Fractions with their points are in order, too. -/
theorem compare_fractionPart (hm : m < secondNanos) (hn : n < secondNanos) :
    compare (fractionPart m) (fractionPart n) = compare m n := by
  rw [fractionPart_eq hm, fractionPart_eq hn]
  split
  next hZero =>
    split
    next hBoth => rw [hZero, hBoth, Std.compare_self, Std.compare_self]
    next hOther =>
      rw [List.compare_nil_cons, eq_comm, Nat.compare_eq_lt]
      omega
  next hSome =>
    split
    next hZero =>
      rw [List.compare_cons_nil, eq_comm, Nat.compare_eq_gt]
      omega
    next => rw [compare_cons_self, compare_fractionDigits hm hn]

/-- The characters stand before the letter at the end of a timestamp in UTC. -/
def BeforeZ (ds : List Char) : Prop := ∀ c ∈ ds, c.toNat < 'Z'.toNat

theorem beforeZ_fractionPart (h : n < secondNanos) : BeforeZ (fractionPart n) := by
  rw [fractionPart]
  split
  next => simp [BeforeZ]
  next =>
    refine List.forall_mem_cons.mpr ⟨by decide, fun c hc => ?_⟩
    have hBounds := Numeral.bounds_of_isDigit (digits_fractionText h c hc)
    change c.toNat < 90
    omega

/-- The letter behind two texts turns their order round where one of them goes on with the other. -/
theorem compare_append_Z {ds es : List Char} (hd : BeforeZ ds) (he : BeforeZ es) :
    compare (ds ++ ['Z']) (es ++ ['Z']) =
      if ds <+: es ∨ es <+: ds then (compare ds es).swap else compare ds es := by
  induction ds generalizing es with
  | nil =>
      cases es with
      | nil => rfl
      | cons e es =>
          have hGreater : compare 'Z' e = .gt := by
            rw [Text.compare_toNat, Nat.compare_eq_gt]
            exact he e (List.mem_cons_self ..)
          rw [if_pos (.inl List.nil_prefix), List.nil_append, List.cons_append,
            List.compare_cons_cons, hGreater]
          rfl
  | cons d ds ih =>
      cases es with
      | nil =>
          have hLess : compare d 'Z' = .lt := by
            rw [Text.compare_toNat, Nat.compare_eq_lt]
            exact hd d (List.mem_cons_self ..)
          rw [if_pos (.inr List.nil_prefix), List.nil_append, List.cons_append,
            List.compare_cons_cons, hLess]
          rfl
      | cons e es =>
          have hdRest : BeforeZ ds := fun c hc => hd c (List.mem_cons_of_mem _ hc)
          have heRest : BeforeZ es := fun c hc => he c (List.mem_cons_of_mem _ hc)
          have hRest := ih hdRest heRest
          by_cases hSame : d = e
          · subst hSame
            simp only [List.cons_append, compare_cons_self, List.cons_prefix_cons, true_and]
            exact hRest
          · have hNone : ¬ (d :: ds <+: e :: es ∨ e :: es <+: d :: ds) := by
              simp [hSame, Ne.symm hSame]
            rw [if_neg hNone, List.cons_append, List.cons_append, List.compare_cons_cons,
              List.compare_cons_cons]
            cases hFirst : compare d e with
            | lt => rfl
            | gt => rfl
            | eq =>
                rw [Text.compare_toNat, Nat.compare_eq_eq, Char.toNat_inj] at hFirst
                exact absurd hFirst hSame

/-- The readings are of one second, and the fraction of the second one begins as the whole fraction
of the first one, which may be none. -/
def Extends (z w : Zoned) : Prop :=
  z.clock.date = w.clock.date ∧ z.clock.time.seconds = w.clock.time.seconds ∧
    fractionPart z.clock.time.nanosecond <+: fractionPart w.clock.time.nanosecond

instance (z w : Zoned) : Decidable (z.Extends w) := inferInstanceAs (Decidable (_ ∧ _ ∧ _))

theorem ascii_fractionPart (h : n < secondNanos) : Text.Ascii (fractionPart n) := by
  rw [fractionPart]
  split
  next => exact Text.ascii_nil
  next => exact .cons (by decide) (digits_fractionText h).ascii

theorem ascii_offsetPart (offset : Int) : Text.Ascii (offsetPart offset) := by
  have hMinute := (digits_padded 2 (offset.natAbs / 60 % 60)).ascii
  have hHour := (digits_padded 2 (offset.natAbs / 3600)).ascii
  rw [offsetPart]
  split
  next => exact .cons (by decide) Text.ascii_nil
  next => exact .cons (by split <;> decide) (hHour.append (.cons (by decide) hMinute))

/-- A timestamp in UTC from year 0 on has a text. -/
theorem exists_rfc3339_utc (hOffset : z.offset = 0) (hYear : 0 ≤ z.clock.date.year) :
    ∃ s, z.rfc3339 = .ok s := by
  cases hText : z.rfc3339 with
  | ok s => exact ⟨s, rfl⟩
  | error e =>
      have hFirst : ¬ z.clock.date.year < 0 := Int.not_lt.mpr hYear
      simp [rfc3339, hOffset, hFirst] at hText

/-- The text of a zoned timestamp has ASCII letters only. -/
theorem ascii_rfc3339 {s : String} (h : z.rfc3339 = .ok s) : Text.Ascii s.toList := by
  obtain ⟨-, -, -, hText⟩ := rfc3339_eq_ok h
  have hEnd := (ascii_fractionPart z.clock.time.isTime.2.2.2).append (ascii_offsetPart z.offset)
  rw [hText]
  exact z.clock.date.ascii_text.append (.cons (by decide) (Time.ascii_clock hEnd z.clock.time))

/-- In UTC instants are compared by date, second and fraction of the clock. -/
theorem compare_instant_utc (hz : z.offset = 0) (hw : w.offset = 0) :
    compare z.instant w.instant = ((compare z.clock.date.dayNumber w.clock.date.dayNumber).then
      (compare z.clock.time.seconds w.clock.time.seconds)).then
        (compare z.clock.time.nanosecond w.clock.time.nanosecond) := by
  have hClock (z : Zoned) (h : z.offset = 0) : z.instant = z.clock.instant := by
    rw [instant, h, Int.zero_mul, Int.sub_zero]
  rw [hClock z hz, hClock w hw, Timestamp.compare_instant, Time.compare_nanoseconds,
    Ordering.then_assoc]

/-- How the RFC 3339 texts of two readings in UTC compare: as their instants do, but the other way
round where a reading extends the other one. -/
theorem compare_rfc3339 {s t : String} (hz : z.offset = 0) (hw : w.offset = 0)
    (hs : z.rfc3339 = .ok s) (ht : w.rfc3339 = .ok t) :
    compare s.toList t.toList = if z.Extends w ∨ w.Extends z then (compare z.instant w.instant).swap
      else compare z.instant w.instant := by
  obtain ⟨hYear, -, -, hText⟩ := rfc3339_eq_ok hs
  obtain ⟨hYear', -, -, hText'⟩ := rfc3339_eq_ok ht
  have hNano := z.clock.time.isTime.2.2.2
  have hNano' := w.clock.time.isTime.2.2.2
  have hEnds := compare_append_Z (beforeZ_fractionPart hNano) (beforeZ_fractionPart hNano')
  rw [compare_fractionPart hNano hNano'] at hEnds
  rw [hText, hText', hz, hw,
    compare_append ((Date.length_text hYear).trans (Date.length_text hYear').symm),
    Date.compare_text hYear hYear', compare_cons_self, Time.compare_clock, ← Ordering.then_assoc,
    compare_instant_utc hz hw]
  change Ordering.then _ (compare (_ ++ ['Z']) (_ ++ ['Z'])) = _
  rw [hEnds]
  by_cases hSecond : z.clock.date = w.clock.date ∧ z.clock.time.seconds = w.clock.time.seconds
  · obtain ⟨hDate, hClock⟩ := hSecond
    simp only [Extends, hDate, hClock, true_and, Std.compare_self, Ordering.eq_then]
  · have hNone : ¬ (z.Extends w ∨ w.Extends z) := by
      rintro (⟨hDate, hClock, -⟩ | ⟨hDate, hClock, -⟩)
      · exact hSecond ⟨hDate, hClock⟩
      · exact hSecond ⟨hDate.symm, hClock.symm⟩
    have hApart : (compare z.clock.date.dayNumber w.clock.date.dayNumber).then
        (compare z.clock.time.seconds w.clock.time.seconds) ≠ .eq := by
      rw [ne_eq, Ordering.then_eq_eq, Int.compare_eq_eq, Nat.compare_eq_eq]
      exact fun h => hSecond ⟨Date.eq_of_dayNumber h.1, h.2⟩
    rw [if_neg hNone]
    generalize (compare z.clock.date.dayNumber w.clock.date.dayNumber).then
      (compare z.clock.time.seconds w.clock.time.seconds) = o at hApart
    cases o with
    | eq => exact absurd rfl hApart
    | lt => rfl
    | gt => rfl

end Zoned

end SqlMapper
