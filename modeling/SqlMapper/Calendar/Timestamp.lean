import SqlMapper.Calendar.Date
import SqlMapper.Calendar.Time

/-!
# Points in time

A `Timestamp` is a wall clock reading, a `Zoned` one together with its distance from UTC. Two zoned
timestamps are the same when their instants are, whatever their offsets.
-/

namespace SqlMapper

/-- A date and a time of day, without a place. -/
structure Timestamp where
  date : Date
  time : Time
  deriving DecidableEq

namespace Timestamp

/-- Nanoseconds on the line of instants, read as a clock in UTC. -/
def instant (t : Timestamp) : Int :=
  (t.date.dayNumber * daySeconds + t.time.seconds) * secondNanos + t.time.nanosecond

end Timestamp

/-- The most seconds that a clock can be away from UTC: one second less than 26 hours. -/
def offsetLimit : Int := 93599

/-- A clock can be `seconds` ahead of UTC. -/
def IsOffset (seconds : Int) : Prop := -offsetLimit ≤ seconds ∧ seconds ≤ offsetLimit

instance (seconds : Int) : Decidable (IsOffset seconds) := inferInstanceAs (Decidable (_ ∧ _))

/-- A wall clock reading at a place whose clocks are `offset` seconds ahead of UTC. -/
structure Zoned where
  clock : Timestamp
  offset : Int
  isOffset : IsOffset offset
  deriving DecidableEq

namespace Zoned

/-- The reading with its offset, none when the offset is out of bounds. -/
def of? (clock : Timestamp) (offset : Int) : Option Zoned :=
  if h : IsOffset offset then some ⟨clock, offset, h⟩ else none

/-- A clock reading taken as UTC. -/
def utc (clock : Timestamp) : Zoned := ⟨clock, 0, by decide⟩

/-- Nanoseconds on the line of instants. -/
def instant (z : Zoned) : Int := z.clock.instant - z.offset * secondNanos

/-- The same instant on a clock in UTC, none when it leaves the calendar. -/
def clockUtc? (z : Zoned) : Option Timestamp :=
  let second := (z.clock.time.seconds : Int) - z.offset
  (z.clock.date.shift? (second / daySeconds)).map fun date =>
    ⟨date, z.clock.time.atSecond (second % daySeconds).toNat⟩

/-- The two readings name one instant. -/
def same (a b : Zoned) : Bool := a.instant == b.instant

@[simp] theorem instant_utc (clock : Timestamp) : (utc clock).instant = clock.instant := by
  simp [utc, instant]

end Zoned

end SqlMapper
