/-!
# Dates

A date of the proleptic Gregorian calendar in the years -9999 to 9999. `dayNumber` counts days on
one line, and the day after a date has the next number.
-/

namespace SqlMapper

def isLeapYear (year : Int) : Bool := year % 4 == 0 && (year % 100 != 0 || year % 400 == 0)

/-- Days of a month; a month that does not exist has none. -/
def daysInMonth (year : Int) (month : Nat) : Nat :=
  match month with
  | 1 | 3 | 5 | 7 | 8 | 10 | 12 => 31
  | 4 | 6 | 9 | 11 => 30
  | 2 => if isLeapYear year then 29 else 28
  | _ => 0

/-- Days before the first of a month within its year. -/
def daysBeforeMonth (year : Int) : (month : Nat) → Nat
  | 0 => 0
  | month + 1 => daysBeforeMonth year month + daysInMonth year month

/-- Days from the first of January of year 1 to the first of January of `year`. -/
def daysBeforeYear (year : Int) : Int :=
  365 * (year - 1) + (year - 1) / 4 - (year - 1) / 100 + (year - 1) / 400

/-- The last year of the calendar; the first is its negation. -/
def lastYear : Int := 9999

/-- The numbers name a day of the calendar. -/
def IsDate (year : Int) (month day : Nat) : Prop :=
  -lastYear ≤ year ∧ year ≤ lastYear ∧ 1 ≤ day ∧ day ≤ daysInMonth year month

instance (year : Int) (month day : Nat) : Decidable (IsDate year month day) :=
  inferInstanceAs (Decidable (_ ∧ _ ∧ _ ∧ _))

/-- A day of the calendar. -/
structure Date where
  year : Int
  month : Nat
  day : Nat
  isDate : IsDate year month day
  deriving DecidableEq

namespace Date

/-- The date with these numbers, none when they name no day. -/
def of? (year : Int) (month day : Nat) : Option Date :=
  if h : IsDate year month day then some ⟨year, month, day, h⟩ else none

/-- The first of January 1970. -/
def epoch : Date := ⟨1970, 1, 1, by decide⟩

/-- The position of the day on the line of days; the first of January of year 1 has number 1. -/
def dayNumber (d : Date) : Int :=
  daysBeforeYear d.year + daysBeforeMonth d.year d.month + d.day

/-- The day after, none after the last day of the calendar. -/
def next? (d : Date) : Option Date :=
  if d.day < daysInMonth d.year d.month then of? d.year d.month (d.day + 1)
  else if d.month < 12 then of? d.year (d.month + 1) 1
  else of? (d.year + 1) 1 1

/-- The day before, none before the first day of the calendar. -/
def previous? (d : Date) : Option Date :=
  if 1 < d.day then of? d.year d.month (d.day - 1)
  else if 1 < d.month then of? d.year (d.month - 1) (daysInMonth d.year (d.month - 1))
  else of? (d.year - 1) 12 31

/-- The day `n` days after. -/
def after? : (n : Nat) → Date → Option Date
  | 0, d => some d
  | n + 1, d => d.next?.bind (after? n)

/-- The day `n` days before. -/
def before? : (n : Nat) → Date → Option Date
  | 0, d => some d
  | n + 1, d => d.previous?.bind (before? n)

/-- The day `n` days later, or earlier when `n` is negative. -/
def shift? (d : Date) (n : Int) : Option Date :=
  if 0 ≤ n then after? n.toNat d else before? (-n).toNat d

def isLastOfMonth (d : Date) : Bool := d.day == daysInMonth d.year d.month

@[simp] theorem of?_self (d : Date) : of? d.year d.month d.day = some d := by
  simp [of?, d.isDate]

theorem of?_eq_some_iff {year : Int} {month day : Nat} {d : Date} :
    of? year month day = some d ↔ d.year = year ∧ d.month = month ∧ d.day = day := by
  constructor
  · intro h
    unfold of? at h
    split at h
    · cases h
      exact ⟨rfl, rfl, rfl⟩
    · cases h
  · rintro ⟨rfl, rfl, rfl⟩
    exact of?_self d

end Date

end SqlMapper
