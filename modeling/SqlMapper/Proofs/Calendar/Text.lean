import Mathlib.Data.List.TakeWhile
import SqlMapper.Calendar.Text
import SqlMapper.Proofs.Number.Numeral

/-! Dates and times as text. Each layout that is written is read back as what it was written of,
digit by digit: a number of a fixed width, a fraction without zeros at its end, and the parts of
dates and times from left to right. -/
namespace SqlMapper

open Numeral (Digits padded)

/-! ### Parts -/

/-- Digits that are followed by something else end there. -/
def EndsDigits (rest : List Char) : Prop := ∀ c ∈ rest.head?, c.isDigit = false

/-- Digits are taken up to the first character that is none. -/
theorem takeWhile_digits {ds rest : List Char} (h : Digits ds) (hEnds : EndsDigits rest) :
    (ds ++ rest).takeWhile Char.isDigit = ds := by
  rw [List.takeWhile_append_of_pos h]
  cases rest with
  | nil => simp
  | cons c rest => rw [List.takeWhile_cons, hEnds c rfl, if_neg (by simp), List.append_nil]

/-- Padded digits are read back as the number, if it has room in them. -/
theorem fixedDigits?_padded {width n : Nat} [NeZero width] (h : n < tenTo width) (rest : List Char) :
    fixedDigits? width ((padded width n).toList ++ rest) = some (n, rest) := by
  have hLength := Numeral.length_padded h
  have hDigits := Numeral.digits_padded width n
  have hTake : ((padded width n).toList ++ rest).take width = (padded width n).toList :=
    List.take_left' hLength
  have hDrop : ((padded width n).toList ++ rest).drop width = rest := List.drop_left' hLength
  rw [fixedDigits?, hTake, hDrop, if_pos ⟨hLength, List.all_eq_true.mpr hDigits⟩,
    Numeral.foldl_digits hDigits, Numeral.ofDigitChars_padded]

theorem literal?_self (c : Char) (rest : List Char) : literal? c (c :: rest) = some rest := by
  rw [literal?, if_pos rfl]

/-! ### Fractions -/

/-- What a fraction leaves out are zeros at its end. -/
theorem exists_zeros (ds : List Char) :
    ∃ k, ds = (ds.reverse.dropWhile (· == '0')).reverse ++ List.replicate k '0' := by
  refine ⟨(ds.reverse.takeWhile (· == '0')).length, ?_⟩
  have hZeros : ds.reverse.takeWhile (· == '0') =
      List.replicate (ds.reverse.takeWhile (· == '0')).length '0' :=
    List.eq_replicate_of_mem fun c hc => by simpa using List.mem_takeWhile_imp hc
  calc
    ds = (ds.reverse.takeWhile (· == '0') ++ ds.reverse.dropWhile (· == '0')).reverse := by
      rw [List.takeWhile_append_dropWhile, List.reverse_reverse]
    _ = (ds.reverse.dropWhile (· == '0')).reverse ++ (ds.reverse.takeWhile (· == '0')).reverse :=
      List.reverse_append
    _ = _ := by rw [hZeros, List.reverse_replicate, List.length_replicate]

/-- A fraction has at least one digit and at most nine, which with zeros behind them are the nine
digits of the nanoseconds. -/
theorem exists_fractionText {n : Nat} (h : n < secondNanos) :
    ∃ ds, (fractionText n).toList = ds ∧ ds ≠ [] ∧ ds.length ≤ 9 ∧ Digits ds ∧
      (ds ++ List.replicate 9 '0').take 9 = (padded 9 n).toList := by
  have hLength : (padded 9 n).toList.length = 9 := Numeral.length_padded h
  have hDigits := Numeral.digits_padded 9 n
  obtain ⟨k, hZeros⟩ := exists_zeros (padded 9 n).toList
  rw [fractionText]
  generalize (padded 9 n).toList = nine at hLength hDigits hZeros ⊢
  generalize (nine.reverse.dropWhile (· == '0')).reverse = ds at hZeros ⊢
  subst hZeros
  rw [List.length_append, List.length_replicate] at hLength
  cases ds with
  | nil =>
      have hAll : k = 9 := by simpa using hLength
      subst hAll
      exact ⟨['0'], rfl, by simp, by simp, by simp [Digits], rfl⟩
  | cons c ds =>
      refine ⟨c :: ds, ?_, List.cons_ne_nil c ds, by omega, ?_, ?_⟩
      · exact String.toList_ofList
      · exact fun d hd => hDigits d (List.mem_append_left _ hd)
      · rw [List.take_append, List.take_of_length_le (by omega), List.take_replicate]
        congr 2
        omega

/-- A fraction has nine digits at most. -/
theorem length_fractionText_le {n : Nat} (h : n < secondNanos) :
    (fractionText n).toList.length ≤ 9 := by
  obtain ⟨ds, hText, -, hNine, -, -⟩ := exists_fractionText h
  rwa [hText]

theorem digits_fractionText {n : Nat} (h : n < secondNanos) : Digits (fractionText n).toList := by
  obtain ⟨ds, hText, -, -, hDigits, -⟩ := exists_fractionText h
  rwa [hText]

/-- A fraction is read back from its digits, wherever they end. -/
theorem fraction?_fractionText {limit n : Nat} (h : n < secondNanos)
    (hLimit : (fractionText n).toList.length ≤ limit) {rest : List Char} (hEnds : EndsDigits rest) :
    fraction? limit ((fractionText n).toList ++ rest) = some (n, rest) := by
  obtain ⟨ds, hText, hSome, hNine, hDigits, hPadded⟩ := exists_fractionText h
  rw [hText] at hLimit ⊢
  have hEmpty : ds.isEmpty = false := by simpa using hSome
  rw [fraction?, takeWhile_digits hDigits hEnds, List.take_of_length_le hLimit, hPadded]
  dsimp only
  rw [if_neg (by simp [hEmpty]), Numeral.foldl_digits (Numeral.digits_padded 9 n),
    Numeral.ofDigitChars_padded, List.drop_left]

/-! ### Dates -/

namespace Date

variable (d : Date)

/-- A date is in one of the twelve months. -/
theorem month_bounds : 1 ≤ d.month ∧ d.month ≤ 12 := by
  obtain ⟨-, -, hDay, hDays⟩ := d.isDate
  by_contra hMonth
  have hNone : daysInMonth d.year d.month = 0 := by
    unfold daysInMonth
    split <;> omega
  omega

theorem month_lt : d.month < tenTo 2 := Nat.lt_of_le_of_lt d.month_bounds.2 (by decide)

theorem day_lt : d.day < tenTo 2 := by
  obtain ⟨-, -, -, hDays⟩ := d.isDate
  have hMost : daysInMonth d.year d.month ≤ 31 := by
    unfold daysInMonth
    split <;> try split
    all_goals omega
  exact Nat.lt_of_le_of_lt (Nat.le_trans hDays hMost) (by decide)

/-- The calendar has years of four digits only. -/
theorem year_lt : d.year.natAbs < tenTo 4 := by
  obtain ⟨hFirst, hLast, -, -⟩ := d.isDate
  rw [lastYear] at hFirst hLast
  change d.year.natAbs < 10000
  omega

def unsigned? (negative : Bool) (cs : List Char) : Option (Date × List Char) := do
  let (year, cs) ← fixedDigits? 4 cs
  let cs ← literal? '-' cs
  let (month, cs) ← fixedDigits? 2 cs
  let cs ← literal? '-' cs
  let (day, cs) ← fixedDigits? 2 cs
  let date ← Date.of? (if negative then -(year : Int) else year) month day
  some (date, cs)

theorem date?_minus (cs : List Char) : date? ('-' :: cs) = unsigned? true cs := rfl

theorem date?_digits {cs : List Char} (h : ∀ c ∈ cs.head?, c.isDigit = true) :
    date? cs = unsigned? false cs := by
  unfold date?
  split
  next heq =>
    split at heq
    next => exact absurd (h '-' rfl) (by decide)
    next => exact absurd (h '+' rfl) (by decide)
    next =>
      obtain ⟨rfl, rfl⟩ := Prod.mk.inj heq
      rfl

/-- The text of a date behind its sign. -/
def unsignedText : List Char :=
  (padded 4 d.year.natAbs).toList ++ '-' :: ((padded 2 d.month).toList ++ '-' ::
    (padded 2 d.day).toList)

/-- A date is written with its sign, its year, its month and its day. -/
theorem toList_text : d.text.toList = (if d.year < 0 then ['-'] else []) ++ d.unsignedText := by
  rw [text, unsignedText]
  split <;> simp

/-- Behind its sign a date is read back. -/
theorem unsigned?_text {negative : Bool}
    (hSign : (if negative then -(d.year.natAbs : Int) else d.year.natAbs) = d.year)
    (rest : List Char) : unsigned? negative (d.unsignedText ++ rest) = some (d, rest) := by
  simp only [unsigned?, unsignedText, List.append_assoc, List.cons_append,
    fixedDigits?_padded d.year_lt, fixedDigits?_padded d.month_lt, fixedDigits?_padded d.day_lt,
    literal?_self, Option.bind_eq_bind, Option.bind_some, hSign, Date.of?_self]

/-- A date is read from the start of a text that begins with it. -/
theorem date?_text (rest : List Char) : date? (d.text.toList ++ rest) = some (d, rest) := by
  rw [toList_text]
  by_cases hNegative : d.year < 0
  · have hSign : -(d.year.natAbs : Int) = d.year := by omega
    rw [if_pos hNegative, List.singleton_append, List.cons_append, date?_minus]
    exact d.unsigned?_text ((if_pos rfl).trans hSign) rest
  · have hSign : (d.year.natAbs : Int) = d.year := by omega
    rw [if_neg hNegative, List.nil_append, date?_digits ?_]
    · exact d.unsigned?_text ((if_neg Bool.false_ne_true).trans hSign) rest
    · rw [unsignedText, List.append_assoc]
      exact Numeral.isDigit_head_padded 4 _ _

/-- A date is written without blanks. -/
theorem solid_text : Text.Solid d.text.toList := by
  have hSign : Text.Solid (if d.year < 0 then ['-'] else []) := by
    split
    · exact .cons rfl Text.solid_nil
    · exact Text.solid_nil
  have hDay := (Numeral.digits_padded 2 d.day).solid
  have hMonth := (Numeral.digits_padded 2 d.month).solid
  have hYear := (Numeral.digits_padded 4 d.year.natAbs).solid
  rw [toList_text]
  exact hSign.append (hYear.append (.cons rfl (hMonth.append (.cons rfl hDay))))

/-- A date is read back from its text. -/
theorem read?_text : read? d.text = some d := by
  have hRead := d.date?_text []
  rw [List.append_nil] at hRead
  rw [read?, hRead]
  rfl

end Date

/-! ### Times -/

namespace Time

variable (t : Time)

theorem hour_lt : t.hour < tenTo 2 := Nat.lt_trans t.isTime.1 (by decide)

theorem minute_lt : t.minute < tenTo 2 := Nat.lt_trans t.isTime.2.1 (by decide)

theorem second_lt : t.second < tenTo 2 := Nat.lt_trans t.isTime.2.2.1 (by decide)

/-- A time is written with its hour, its minute, its second and its fraction. -/
theorem toList_text : t.text.toList = (padded 2 t.hour).toList ++ ':' ::
    ((padded 2 t.minute).toList ++ ':' :: ((padded 2 t.second).toList ++ '.' ::
      (fractionText t.nanosecond).toList)) := by
  simp [text, afterHourText]

/-- A time of day is read from the start of a text that begins with it. -/
theorem time?_text {rest : List Char} (hEnds : EndsDigits rest) :
    time? .toFraction (t.text.toList ++ rest) = some (t, rest) := by
  obtain ⟨-, -, -, hNano⟩ := t.isTime
  have hLimit : (fractionText t.nanosecond).toList.length ≤ fractionLimit :=
    Nat.le_trans (length_fractionText_le hNano) (by decide)
  simp only [time?, toList_text, List.append_assoc, List.cons_append,
    fixedDigits?_padded t.hour_lt, fixedDigits?_padded t.minute_lt, fixedDigits?_padded t.second_lt,
    literal?_self, fraction?_fractionText hNano hLimit hEnds, Option.bind_eq_bind, Option.bind_some,
    Time.of?_self, reduceCtorEq, if_false]

/-- A time is written without blanks. -/
theorem solid_text : Text.Solid t.text.toList := by
  obtain ⟨-, -, -, hNano⟩ := t.isTime
  have hFraction := (digits_fractionText hNano).solid
  have hSecond := (Numeral.digits_padded 2 t.second).solid
  have hMinute := (Numeral.digits_padded 2 t.minute).solid
  have hHour := (Numeral.digits_padded 2 t.hour).solid
  rw [toList_text]
  exact hHour.append (.cons rfl (hMinute.append (.cons rfl (hSecond.append (.cons rfl hFraction)))))

theorem whole?_text : whole? (time? .toFraction t.text.toList) = some t := by
  have hEnds : EndsDigits [] := by simp [EndsDigits]
  have hRead := t.time?_text hEnds
  rw [List.append_nil] at hRead
  rw [hRead]
  rfl

/-- A time is read back from its text. -/
theorem read?_text : read? t.text = some t := by
  rw [read?, List.map_cons, whole?_text]
  rfl

end Time

/-! ### Timestamps -/

namespace Timestamp

/-- A timestamp is written with its date and its time. -/
theorem toList_text (t : Timestamp) :
    t.text.toList = t.date.text.toList ++ ' ' :: t.time.text.toList := by
  simp [text]

/-- The blank of a timestamp stands inside of it. -/
theorem trim_text (t : Timestamp) : Text.trim t.text = t.text := by
  have hDate : t.date.text.toList ≠ [] := by
    simp [Date.toList_text, Date.unsignedText]
  have hTime : t.time.text.toList ≠ [] := by
    simp [Time.toList_text]
  have hEq : t.text.toList = t.date.text.toList ++ ([' '] ++ t.time.text.toList) := toList_text t
  exact Text.trim_of_solid_ends hEq t.date.solid_text t.time.solid_text hDate hTime

/-- A timestamp is read back from its text. -/
theorem read?_text (t : Timestamp) : read? t.text = some t := by
  have hFirst : readWith? ' ' .toFraction t.text.toList = some t := by
    rw [readWith?, toList_text, Date.date?_text]
    simp only [literal?_self, Option.bind_eq_bind, Option.bind_some, Time.whole?_text]
  rw [read?, hFirst]
  rfl

end Timestamp

end SqlMapper
