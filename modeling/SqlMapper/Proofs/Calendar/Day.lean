import Mathlib.Data.Int.Init
import SqlMapper.Proofs.Calendar.Text

/-! Dates as days on one line. An earlier date has a smaller number, the day after has the next one, and
no number between those of the first and the last day of the calendar is left out. -/
namespace SqlMapper

/-! ### Years -/

def daysInYear (year : Int) : Nat := if isLeapYear year then 366 else 365

/-- Behind its twelve months a year has all of its days. -/
theorem daysBeforeMonth_thirteen (year : Int) : daysBeforeMonth year 13 = daysInYear year := by
  cases hLeap : isLeapYear year <;> simp [daysBeforeMonth, daysInMonth, daysInYear, hLeap]

theorem daysBeforeMonth_mono (year : Int) {m n : Nat} (h : m ≤ n) :
    daysBeforeMonth year m ≤ daysBeforeMonth year n := by
  induction h with
  | refl => exact Nat.le_refl _
  | step h ih => exact Nat.le_trans ih (Nat.le_add_right _ _)

/-- No month is empty. -/
theorem daysInMonth_pos (year : Int) {month : Nat} (h : 1 ≤ month) (hLast : month ≤ 12) :
    1 ≤ daysInMonth year month := by
  unfold daysInMonth
  grind

/-- Years follow one another without a gap. -/
theorem daysBeforeYear_succ (year : Int) :
    daysBeforeYear (year + 1) = daysBeforeYear year + daysInYear year := by
  have hLeap : isLeapYear year = true ↔ year % 4 = 0 ∧ (year % 100 ≠ 0 ∨ year % 400 = 0) := by
    simp [isLeapYear]
  unfold daysBeforeYear daysInYear
  split
  next h =>
    have hRule := hLeap.mp h
    omega
  next h =>
    have hRule := mt hLeap.mpr h
    omega

/-- The year ends with the 31st of December. -/
theorem daysBeforeYear_december (year : Int) :
    daysBeforeYear (year + 1) = daysBeforeYear year + daysBeforeMonth year 12 + 31 := by
  have hYear : daysInYear year = daysBeforeMonth year 12 + 31 := (daysBeforeMonth_thirteen year).symm
  rw [daysBeforeYear_succ, hYear]
  omega

theorem daysBeforeYear_mono {y z : Int} (h : y ≤ z) : daysBeforeYear y ≤ daysBeforeYear z := by
  induction z, h using Int.leInduction with
  | base => exact Int.le_refl _
  | succ z _ ih =>
      rw [daysBeforeYear_succ]
      omega

namespace Date

variable {a b d e : Date}

/-! ### Order -/

/-- The day comes earlier in the calendar. -/
def Precedes (a b : Date) : Prop :=
  a.year < b.year ∨ a.year = b.year ∧ (a.month < b.month ∨ a.month = b.month ∧ a.day < b.day)

theorem eq_of_parts (hYear : a.year = b.year) (hMonth : a.month = b.month) (hDay : a.day = b.day) :
    a = b := by
  cases a
  cases b
  simp_all

/-- Of two dates one comes before the other, unless they are the same. -/
theorem eq_or_precedes (a b : Date) : a = b ∨ a.Precedes b ∨ b.Precedes a := by
  by_cases h : a.year = b.year ∧ a.month = b.month ∧ a.day = b.day
  · exact .inl (eq_of_parts h.1 h.2.1 h.2.2)
  · right
    unfold Precedes
    omega

/-- The position of the day in its year, from one. -/
def dayOfYear (d : Date) : Nat := daysBeforeMonth d.year d.month + d.day

/-- A date is numbered by the days of the years before its own and by its day in the year. -/
theorem dayNumber_eq (d : Date) : d.dayNumber = daysBeforeYear d.year + d.dayOfYear := by
  unfold dayNumber dayOfYear
  omega

theorem dayOfYear_pos (d : Date) : 1 ≤ d.dayOfYear := by
  obtain ⟨-, -, hDay, -⟩ := d.isDate
  exact Nat.le_trans hDay (Nat.le_add_left _ _)

theorem dayOfYear_le (d : Date) : d.dayOfYear ≤ daysBeforeMonth d.year (d.month + 1) := by
  obtain ⟨-, -, -, hDay⟩ := d.isDate
  exact Nat.add_le_add_left hDay _

/-- The day of a year is one of the year. -/
theorem dayOfYear_le_daysInYear (d : Date) : d.dayOfYear ≤ daysInYear d.year := by
  have hMonth : d.month + 1 ≤ 13 := Nat.succ_le_succ d.month_bounds.2
  rw [← daysBeforeMonth_thirteen]
  exact Nat.le_trans d.dayOfYear_le (daysBeforeMonth_mono d.year hMonth)

/-- Within a year later months, and later days of a month, are later days of the year. -/
theorem dayOfYear_lt (hYear : a.year = b.year)
    (h : a.month < b.month ∨ a.month = b.month ∧ a.day < b.day) : a.dayOfYear < b.dayOfYear := by
  rcases h with hMonth | ⟨hMonth, hDay⟩
  · obtain ⟨-, -, hFirst, -⟩ := b.isDate
    have hEnd := a.dayOfYear_le
    have hStart : daysBeforeMonth a.year (a.month + 1) ≤ daysBeforeMonth a.year b.month :=
      daysBeforeMonth_mono a.year hMonth
    rw [hYear] at hEnd hStart
    unfold dayOfYear at hEnd ⊢
    omega
  · unfold dayOfYear
    rw [hYear, hMonth]
    omega

/-- Later dates have greater numbers. -/
theorem Precedes.dayNumber_lt (h : a.Precedes b) : a.dayNumber < b.dayNumber := by
  rw [dayNumber_eq, dayNumber_eq]
  rcases h with hYear | ⟨hYear, hRest⟩
  · -- The whole year of `a` is over before that of `b` begins.
    have hStart := b.dayOfYear_pos
    have hEnd := a.dayOfYear_le_daysInYear
    have hYears : daysBeforeYear (a.year + 1) ≤ daysBeforeYear b.year := daysBeforeYear_mono hYear
    rw [daysBeforeYear_succ] at hYears
    omega
  · have hLess := dayOfYear_lt hYear hRest
    rw [hYear]
    omega

/-- The numbers of days are in the order of the calendar. -/
theorem dayNumber_lt_iff : a.dayNumber < b.dayNumber ↔ a.Precedes b := by
  constructor
  · intro h
    rcases eq_or_precedes a b with rfl | hBefore | hAfter
    · omega
    · exact hBefore
    · have hLess := hAfter.dayNumber_lt
      omega
  · exact Precedes.dayNumber_lt

/-- No two dates have the same number. -/
theorem eq_of_dayNumber (h : a.dayNumber = b.dayNumber) : a = b := by
  rcases eq_or_precedes a b with hSame | hBefore | hAfter
  · exact hSame
  · have hLess := hBefore.dayNumber_lt
    omega
  · have hLess := hAfter.dayNumber_lt
    omega

def first : Date := ⟨-9999, 1, 1, by decide⟩

def last : Date := ⟨9999, 12, 31, by decide⟩

/-- The calendar begins with its first date. -/
theorem first_le (d : Date) : first.dayNumber ≤ d.dayNumber := by
  obtain ⟨hYear, -, hDay, -⟩ := d.isDate
  have hMonth := d.month_bounds
  have hNone : ¬ d.Precedes first := by
    simp only [Precedes, first]
    unfold lastYear at hYear
    omega
  exact Int.not_lt.mp (mt dayNumber_lt_iff.mp hNone)

theorem day_le_of_december (h : d.month = 12) : d.day ≤ 31 := by
  obtain ⟨-, -, -, hDay⟩ := d.isDate
  rw [h] at hDay
  exact hDay

/-- The calendar ends with its last date. -/
theorem le_last (d : Date) : d.dayNumber ≤ last.dayNumber := by
  obtain ⟨-, hYear, -, -⟩ := d.isDate
  have hMonth := d.month_bounds
  have hDay := day_le_of_december (d := d)
  have hNone : ¬ last.Precedes d := by
    simp only [Precedes, last]
    unfold lastYear at hYear
    omega
  exact Int.not_lt.mp (mt dayNumber_lt_iff.mp hNone)

/-! ### Neighbours -/

/-- Only parts that make no date are refused. -/
theorem of?_eq_none_iff {year : Int} {month day : Nat} :
    of? year month day = none ↔ ¬ IsDate year month day := by
  simp [of?]

/-- The next date has the next number. -/
theorem dayNumber_of_next? (h : d.next? = some e) : e.dayNumber = d.dayNumber + 1 := by
  obtain ⟨-, -, -, hDay⟩ := d.isDate
  have hMonth := d.month_bounds
  unfold next? at h
  split at h
  next =>
    obtain ⟨hYear, hSame, hNext⟩ := of?_eq_some_iff.mp h
    unfold dayNumber
    rw [hYear, hSame, hNext]
    omega
  next hLast =>
    split at h
    next =>
      obtain ⟨hYear, hNext, hFirst⟩ := of?_eq_some_iff.mp h
      unfold dayNumber
      rw [hYear, hNext, hFirst, daysBeforeMonth]
      omega
    next =>
      obtain ⟨hNext, hJanuary, hFirst⟩ := of?_eq_some_iff.mp h
      have hDecember : d.month = 12 := by omega
      have hDays : daysInMonth d.year 12 = 31 := rfl
      have hNone : daysBeforeMonth (d.year + 1) 1 = 0 := rfl
      rw [hDecember] at hDay hLast
      unfold dayNumber
      rw [hNext, hJanuary, hFirst, hDecember, daysBeforeYear_december]
      omega

/-- Only the last date has no next one. -/
theorem eq_last_of_next? (h : d.next? = none) : d = last := by
  obtain ⟨hFirst, hYear, -, -⟩ := d.isDate
  have hMonth := d.month_bounds
  unfold next? at h
  split at h
  next hLess => exact absurd ⟨hFirst, hYear, by omega, hLess⟩ (of?_eq_none_iff.mp h)
  next hLast =>
    split at h
    next hLess =>
      have hNext : 1 ≤ daysInMonth d.year (d.month + 1) := daysInMonth_pos d.year (by omega) (by omega)
      exact absurd ⟨hFirst, hYear, Nat.le_refl 1, hNext⟩ (of?_eq_none_iff.mp h)
    next =>
      have hDecember : d.month = 12 := by omega
      have hDay := day_le_of_december hDecember
      have hEnd : ¬ d.year + 1 ≤ lastYear := by
        intro hLess
        have hJanuary : 1 ≤ daysInMonth (d.year + 1) 1 := daysInMonth_pos _ (by decide) (by decide)
        exact of?_eq_none_iff.mp h ⟨by omega, hLess, Nat.le_refl 1, hJanuary⟩
      have hDays : daysInMonth d.year 12 = 31 := rfl
      rw [hDecember] at hLast
      unfold lastYear at hYear hEnd
      apply eq_of_parts
      · show d.year = 9999
        omega
      · exact hDecember
      · show d.day = 31
        omega

/-- The previous date has the number before. -/
theorem dayNumber_of_previous? (h : d.previous? = some e) : e.dayNumber = d.dayNumber - 1 := by
  obtain ⟨-, -, hDay, -⟩ := d.isDate
  have hMonth := d.month_bounds
  unfold previous? at h
  split at h
  next =>
    obtain ⟨hYear, hSame, hPrevious⟩ := of?_eq_some_iff.mp h
    unfold dayNumber
    rw [hYear, hSame, hPrevious]
    omega
  next =>
    split at h
    next =>
      obtain ⟨hYear, hPrevious, hLast⟩ := of?_eq_some_iff.mp h
      have hBefore : daysBeforeMonth d.year d.month =
          daysBeforeMonth d.year (d.month - 1) + daysInMonth d.year (d.month - 1) := by
        obtain ⟨month, hEq⟩ : ∃ month, d.month = month + 1 := ⟨d.month - 1, by omega⟩
        rw [hEq]
        rfl
      unfold dayNumber
      rw [hYear, hPrevious, hLast, hBefore]
      omega
    next =>
      obtain ⟨hPrevious, hDecember, hLast⟩ := of?_eq_some_iff.mp h
      have hJanuary : d.month = 1 := by omega
      have hNone : daysBeforeMonth d.year 1 = 0 := rfl
      have hYears := daysBeforeYear_december (d.year - 1)
      rw [Int.sub_add_cancel] at hYears
      unfold dayNumber
      rw [hPrevious, hDecember, hLast, hJanuary]
      omega

/-- Only the first date has no previous one. -/
theorem eq_first_of_previous? (h : d.previous? = none) : d = first := by
  obtain ⟨hYear, hLastYear, hDay, hDays⟩ := d.isDate
  have hMonth := d.month_bounds
  unfold previous? at h
  split at h
  next => exact absurd ⟨hYear, hLastYear, by omega, by omega⟩ (of?_eq_none_iff.mp h)
  next =>
    split at h
    next =>
      have hPrevious : 1 ≤ daysInMonth d.year (d.month - 1) :=
        daysInMonth_pos d.year (by omega) (by omega)
      exact absurd ⟨hYear, hLastYear, hPrevious, Nat.le_refl _⟩ (of?_eq_none_iff.mp h)
    next =>
      have hEnd : ¬ -lastYear ≤ d.year - 1 := by
        intro hLess
        exact of?_eq_none_iff.mp h ⟨hLess, by omega, by decide, Nat.le_refl 31⟩
      unfold lastYear at hYear hEnd
      apply eq_of_parts
      · show d.year = -9999
        omega
      · show d.month = 1
        omega
      · show d.day = 1
        omega

/-! ### Walks -/

/-- The days after a number of steps, as long as the calendar lasts. -/
structure Walks (step : Date → Option Date) (walk : Nat → Date → Option Date) : Prop where
  zero : ∀ d, walk 0 d = some d
  succ : ∀ n d, walk (n + 1) d = (step d).bind (walk n)

theorem walks_after? : Walks next? after? := ⟨fun _ => rfl, fun _ _ => rfl⟩

theorem walks_before? : Walks previous? before? := ⟨fun _ => rfl, fun _ _ => rfl⟩

namespace Walks

variable {step : Date → Option Date} {walk : Nat → Date → Option Date} {amount : Int} {n : Nat}

/-- Each step of a walk moves the number of the day by the same amount. -/
theorem dayNumber (hWalks : Walks step walk)
    (hStep : ∀ {d e}, step d = some e → e.dayNumber = d.dayNumber + amount) (h : walk n d = some e) :
    e.dayNumber = d.dayNumber + amount * n := by
  induction n generalizing d with
  | zero =>
      rw [hWalks.zero] at h
      obtain rfl := Option.some.inj h
      simp
  | succ n ih =>
      rw [hWalks.succ, Option.bind_eq_some_iff] at h
      obtain ⟨next, hNext, hRest⟩ := h
      rw [ih hRest, hStep hNext, Int.natCast_succ, Int.mul_add]
      omega

/-- A walk that leaves the calendar comes to a day without a neighbour before it is over. -/
theorem exists_end (hWalks : Walks step walk) (h : walk n d = none) :
    ∃ k < n, ∃ e, walk k d = some e ∧ step e = none := by
  induction n generalizing d with
  | zero =>
      rw [hWalks.zero] at h
      cases h
  | succ n ih =>
      rw [hWalks.succ] at h
      cases hNext : step d with
      | none => exact ⟨0, Nat.succ_pos n, d, hWalks.zero d, hNext⟩
      | some next =>
          rw [hNext] at h
          obtain ⟨k, hk, e, hWalk, hEnd⟩ := ih h
          refine ⟨k + 1, Nat.succ_lt_succ hk, e, ?_, hEnd⟩
          rw [hWalks.succ, hNext]
          exact hWalk

end Walks

/-- A shift by days changes the number by so many. -/
theorem dayNumber_of_shift? {n : Int} (h : d.shift? n = some e) : e.dayNumber = d.dayNumber + n := by
  unfold shift? at h
  split at h
  next =>
    have hWalk := walks_after?.dayNumber dayNumber_of_next? h
    omega
  next =>
    have hWalk := walks_before?.dayNumber dayNumber_of_previous? h
    omega

/-- A shift fails only where it leads out of the calendar. -/
theorem shift?_eq_none {n : Int} (h : d.shift? n = none) :
    d.dayNumber + n < first.dayNumber ∨ last.dayNumber < d.dayNumber + n := by
  unfold shift? at h
  split at h
  next =>
    obtain ⟨k, hk, e, hWalk, hEnd⟩ := walks_after?.exists_end h
    have hDay := walks_after?.dayNumber dayNumber_of_next? hWalk
    rw [eq_last_of_next? hEnd] at hDay
    omega
  next =>
    obtain ⟨k, hk, e, hWalk, hEnd⟩ := walks_before?.exists_end h
    have hDay := walks_before?.dayNumber dayNumber_of_previous? hWalk
    rw [eq_first_of_previous? hEnd] at hDay
    omega

/-- A shift finds the day whose number is so many later or earlier, if the calendar has it. -/
theorem shift?_eq_some_iff {n : Int} : d.shift? n = some e ↔ e.dayNumber = d.dayNumber + n := by
  refine ⟨dayNumber_of_shift?, fun h => ?_⟩
  cases hShift : d.shift? n with
  | none =>
      have hOutside := shift?_eq_none hShift
      have hFirst := e.first_le
      have hLast := e.le_last
      omega
  | some other =>
      have hOther := dayNumber_of_shift? hShift
      rw [eq_of_dayNumber (hOther.trans h.symm)]

end Date

end SqlMapper
