/-!
# Times of day

A time of day to the nanosecond. There is no second 60.
-/

namespace SqlMapper

def daySeconds : Nat := 86400

def secondNanos : Nat := 1000000000

def IsTime (hour minute second nanosecond : Nat) : Prop :=
  hour < 24 ∧ minute < 60 ∧ second < 60 ∧ nanosecond < secondNanos

instance (hour minute second nanosecond : Nat) : Decidable (IsTime hour minute second nanosecond) :=
  inferInstanceAs (Decidable (_ ∧ _ ∧ _ ∧ _))

/-- A time of day. -/
structure Time where
  hour : Nat
  minute : Nat
  second : Nat
  nanosecond : Nat
  isTime : IsTime hour minute second nanosecond
  deriving DecidableEq

namespace Time

/-- The time with these numbers, none when they name no time of day. -/
def of? (hour minute second nanosecond : Nat) : Option Time :=
  if h : IsTime hour minute second nanosecond then some ⟨hour, minute, second, nanosecond, h⟩
  else none

def midnight : Time := ⟨0, 0, 0, 0, by decide⟩

/-- Whole seconds since midnight. -/
def seconds (t : Time) : Nat := 3600 * t.hour + 60 * t.minute + t.second

/-- The time at a second of the day, with the fraction of `t`. -/
def atSecond (t : Time) (s : Nat) : Time where
  hour := s % daySeconds / 3600
  minute := s / 60 % 60
  second := s % 60
  nanosecond := t.nanosecond
  isTime := by
    have h := t.isTime
    unfold IsTime at *
    unfold daySeconds
    omega

@[simp] theorem of?_self (t : Time) : of? t.hour t.minute t.second t.nanosecond = some t := by
  simp [of?, t.isTime]

theorem seconds_lt (t : Time) : t.seconds < daySeconds := by
  have h := t.isTime
  unfold IsTime at h
  unfold seconds daySeconds
  omega

/-- Moving a time to its own second changes nothing. -/
theorem atSecond_seconds (t : Time) : t.atSecond t.seconds = t := by
  have h := t.isTime
  unfold IsTime at h
  obtain ⟨hour, minute, second, nanosecond, _⟩ := t
  simp only at h
  simp only [atSecond, seconds, daySeconds, Time.mk.injEq, and_true]
  omega

end Time

end SqlMapper
