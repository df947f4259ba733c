import SqlMapper.Calendar.Timestamp
import SqlMapper.Proofs.Calendar.Day

/-! Clocks and the line of instants. Two clock readings in UTC are of one instant only if they are the
same, and a zoned timestamp has such a reading exactly if its instant lies in the calendar. -/
namespace SqlMapper

namespace Time

variable {s t : Time}

/-- The clock shows the second of the day that it is moved to. -/
theorem seconds_atSecond (t : Time) {n : Nat} (h : n < daySeconds) : (t.atSecond n).seconds = n := by
  unfold daySeconds at h
  simp only [seconds, atSecond, daySeconds]
  omega

/-- A time is given by its second of the day and by its nanosecond. -/
theorem eq_of_seconds (hSeconds : s.seconds = t.seconds) (hNano : s.nanosecond = t.nanosecond) :
    s = t := by
  have hSame : s.atSecond s.seconds = t.atSecond t.seconds := by simp only [atSecond, hSeconds, hNano]
  rwa [atSecond_seconds, atSecond_seconds] at hSame

end Time

namespace Timestamp

variable {s t : Timestamp}

/-- An instant is taken apart into its day, its second of that day and its nanosecond in one way. -/
theorem instant_eq_iff {day : Int} {second nano : Nat} (hSecond : second < daySeconds)
    (hNano : nano < secondNanos) :
    t.instant = (day * daySeconds + second) * secondNanos + nano ↔
      t.date.dayNumber = day ∧ t.time.seconds = second ∧ t.time.nanosecond = nano := by
  have hClock := t.time.seconds_lt
  have hFraction := t.time.isTime.2.2.2
  unfold instant
  unfold daySeconds secondNanos at *
  omega

/-- Clocks in UTC that read the same instant read the same. -/
theorem eq_of_instant (h : s.instant = t.instant) : s = t := by
  obtain ⟨hDay, hSeconds, hNano⟩ :=
    (instant_eq_iff t.time.seconds_lt t.time.isTime.2.2.2).mp h
  have hDate : s.date = t.date := Date.eq_of_dayNumber hDay
  have hTime : s.time = t.time := Time.eq_of_seconds hSeconds hNano
  cases s
  cases t
  simp_all

def first : Timestamp := ⟨Date.first, Time.midnight⟩

def last : Timestamp := ⟨Date.last, ⟨23, 59, 59, 999999999, by decide⟩⟩

/-- No timestamp is before the first one. -/
theorem first_le (t : Timestamp) : first.instant ≤ t.instant := by
  have hDate := t.date.first_le
  have hStart : first.instant = Date.first.dayNumber * daySeconds * secondNanos := rfl
  rw [hStart]
  unfold instant daySeconds secondNanos
  omega

/-- No timestamp is behind the last one. -/
theorem le_last (t : Timestamp) : t.instant ≤ last.instant := by
  have hDate := t.date.le_last
  have hClock := t.time.seconds_lt
  have hFraction := t.time.isTime.2.2.2
  have hEnd : last.instant =
      (Date.last.dayNumber * daySeconds + 86399) * secondNanos + 999999999 := rfl
  rw [hEnd]
  unfold instant
  unfold daySeconds secondNanos at *
  omega

end Timestamp

namespace Zoned

variable {z : Zoned} {t : Timestamp}

/-- The date that UTC has at the instant is one of the calendar. -/
def InCalendar (z : Zoned) : Prop :=
  Timestamp.first.instant ≤ z.instant ∧ z.instant ≤ Timestamp.last.instant

/-- Days by which the clock in UTC is away from the local one. -/
def dayShift (z : Zoned) : Int := ((z.clock.time.seconds : Int) - z.offset) / daySeconds

/-- The second of the day on the clock in UTC. -/
def secondUtc (z : Zoned) : Nat := (((z.clock.time.seconds : Int) - z.offset) % daySeconds).toNat

/-- The second in UTC is one of a day. -/
theorem secondUtc_lt (z : Zoned) : z.secondUtc < daySeconds := by
  unfold secondUtc daySeconds
  omega

theorem clockUtc?_eq (z : Zoned) : z.clockUtc? = (z.clock.date.shift? z.dayShift).map fun date =>
    ⟨date, z.clock.time.atSecond z.secondUtc⟩ := rfl

/-- The instant is that of the clock in UTC, be there a date for it or not. -/
theorem instant_eq (z : Zoned) : z.instant =
    ((z.clock.date.dayNumber + z.dayShift) * daySeconds + z.secondUtc) * secondNanos +
      z.clock.time.nanosecond := by
  unfold instant Timestamp.instant dayShift secondUtc daySeconds secondNanos
  omega

/-- The clock in UTC reads the instant of the zoned timestamp, and no other reading does. -/
theorem clockUtc?_eq_some_iff : z.clockUtc? = some t ↔ t.instant = z.instant := by
  have hSecond := z.clock.time.seconds_atSecond z.secondUtc_lt
  rw [clockUtc?_eq, Option.map_eq_some_iff, instant_eq,
    Timestamp.instant_eq_iff z.secondUtc_lt z.clock.time.isTime.2.2.2]
  constructor
  · rintro ⟨date, hShift, rfl⟩
    exact ⟨Date.shift?_eq_some_iff.mp hShift, hSecond, rfl⟩
  · rintro ⟨hDay, hClock, hNano⟩
    have hTime : z.clock.time.atSecond z.secondUtc = t.time :=
      Time.eq_of_seconds (hSecond.trans hClock.symm) hNano.symm
    exact ⟨t.date, Date.shift?_eq_some_iff.mpr hDay, by rw [hTime]⟩

/-- What is inside of the calendar has a clock in UTC. -/
theorem InCalendar.exists_clockUtc? (h : z.InCalendar) : ∃ t, z.clockUtc? = some t := by
  obtain ⟨hFirst, hLast⟩ := h
  cases hShift : z.clock.date.shift? z.dayShift with
  | some date => exact ⟨_, by rw [clockUtc?_eq, hShift]; rfl⟩
  | none =>
      -- The day has no number in the calendar, so its instants are before the first or after the last.
      have hOutside := Date.shift?_eq_none hShift
      have hSecond := z.secondUtc_lt
      have hFraction := z.clock.time.isTime.2.2.2
      have hStart : Timestamp.first.instant = Date.first.dayNumber * daySeconds * secondNanos := rfl
      have hEnd : Timestamp.last.instant =
          (Date.last.dayNumber * daySeconds + 86399) * secondNanos + 999999999 := rfl
      rw [instant_eq, hStart] at hFirst
      rw [instant_eq, hEnd] at hLast
      unfold daySeconds secondNanos at *
      omega

/-- The instant of a timestamp is inside of the calendar. -/
theorem inCalendar_of_instant (h : t.instant = z.instant) : z.InCalendar :=
  ⟨h ▸ t.first_le, h ▸ t.le_last⟩

/-- Only a zoned timestamp outside of the calendar has no clock in UTC. -/
theorem clockUtc?_eq_none_iff : z.clockUtc? = none ↔ ¬ z.InCalendar := by
  constructor
  · intro hNone hInside
    obtain ⟨t, hClock⟩ := hInside.exists_clockUtc?
    rw [hNone] at hClock
    cases hClock
  · intro hOutside
    rw [Option.eq_none_iff_forall_ne_some]
    intro t hClock
    exact hOutside (inCalendar_of_instant (clockUtc?_eq_some_iff.mp hClock))

end Zoned

end SqlMapper
