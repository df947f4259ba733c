import SqlMapper.Calendar.Text

/-!
# Zoned timestamps as RFC 3339 text

Writing needs a year from 0 to 9999 and an offset of whole minutes below 24 hours. Reading takes any
ASCII character between date and time and either letter case of `Z`. The second 60 is read as the
last nanosecond of second 59 where a leap second can stand: at the end of a month in UTC.
-/

namespace SqlMapper

/-- Why a zoned timestamp has no RFC 3339 text. -/
inductive Rfc3339Error where
  | year
  | offsetHour
  | offsetSecond
  deriving DecidableEq, Repr

namespace Rfc3339Error

def message (e : Rfc3339Error) : String :=
  let component := match e with
    | year => "year"
    | offsetHour => "offset_hour"
    | offsetSecond => "offset_second"
  "The " ++ component ++ " component cannot be formatted into the requested format."

end Rfc3339Error

/-- Why a text is not an RFC 3339 timestamp. -/
inductive MomentError where
  /-- A part cannot be read. -/
  | component (name : String)
  /-- A fixed character is missing. -/
  | literal
  /-- Something follows the timestamp. -/
  | trailing
  /-- A part was read and is out of range. -/
  | range (name : String)
  deriving DecidableEq, Repr

namespace MomentError

def message : MomentError → String
  | component name => "the '" ++ name ++ "' component could not be parsed"
  | literal => "a character literal was not valid"
  | trailing => "unexpected trailing characters; the end of input was expected"
  | range name => name ++ " was not in range"

/-- How many layers of a report repeat the wording: the text and its reading, and for a range also
the part. -/
def layers : MomentError → Nat
  | range _ => 3
  | _ => 2

end MomentError

namespace Zoned

open Numeral (padded)

/-- `2024-06-01T08:30:00.5+02:00`, with `Z` for an offset of zero and no fraction when it is
zero. -/
def rfc3339 (z : Zoned) : Except Rfc3339Error String :=
  let d := z.clock.date
  let t := z.clock.time
  let n := z.offset.natAbs
  if d.year < 0 then .error .year
  else if 23 < n / 3600 then .error .offsetHour
  else if n % 60 ≠ 0 then .error .offsetSecond
  else
    .ok (d.text ++ "T" ++ padded 2 t.hour ++ ":" ++ padded 2 t.minute ++ ":" ++
      padded 2 t.second ++ (if t.nanosecond = 0 then "" else "." ++ fractionText t.nanosecond) ++
      if z.offset = 0 then "Z"
      else (if z.offset < 0 then "-" else "+") ++ padded 2 (n / 3600) ++ ":" ++
        padded 2 (n / 60 % 60))

/-- A part of `n` digits under a name. -/
def part (name : String) (n : Nat) (cs : List Char) : Except MomentError (Nat × List Char) :=
  (fixedDigits? n cs).elim (.error (.component name)) .ok

/-- Two digits with a value of at most `limit`. -/
def partUpTo (name : String) (limit : Nat) (cs : List Char) :
    Except MomentError (Nat × List Char) := do
  let (n, cs) ← part name 2 cs
  if n ≤ limit then return (n, cs) else throw (.component name)

def fixed (c : Char) (cs : List Char) : Except MomentError (List Char) :=
  (literal? c cs).elim (.error .literal) .ok

/-- A number of at most `limit`, under a name. -/
def bounded (name : String) (limit n : Nat) : Except MomentError Unit :=
  if n ≤ limit then .ok () else .error (.range name)

/-- The fraction after a point, of any length; zero without a point. -/
def readFraction : List Char → Except MomentError (Nat × List Char)
  | '.' :: cs => (fraction? cs.length cs).elim (.error (.component "subsecond")) .ok
  | cs => .ok (0, cs)

def readOffset : List Char → Except MomentError (Int × List Char)
  | [] => .error (.component "offset hour")
  | c :: cs =>
    if c = 'Z' ∨ c = 'z' then .ok (0, cs)
    else if c = '+' ∨ c = '-' then do
      let (hour, cs) ← partUpTo "offset hour" 23 cs
      let cs ← fixed ':' cs
      let (minute, cs) ← part "offset minute" 2 cs
      bounded "offset minute" 59 minute
      let seconds : Int := 3600 * hour + 60 * minute
      .ok (if c = '-' then -seconds else seconds, cs)
    else .error (.component "offset hour")

/-- A leap second can stand in place of this second: it is the last of a month in UTC. -/
def admitsLeapSecond (z : Zoned) : Bool :=
  match z.clockUtc? with
  | some t => t.date.isLastOfMonth && t.time.seconds + 1 == daySeconds
  | none => false

/-- The zoned timestamp that an RFC 3339 text denotes. -/
def readRfc3339 (s : String) : Except MomentError Zoned := do
  let (year, cs) ← part "year" 4 s.toList
  let cs ← fixed '-' cs
  let (month, cs) ← part "month" 2 cs
  if month < 1 ∨ 12 < month then throw (.component "month")
  let cs ← fixed '-' cs
  let (day, cs) ← part "day" 2 cs
  let cs ← match cs with
    | c :: cs => if c.toNat < 128 then .ok cs else .error (.component "hour")
    | [] => .error (.component "separator")
  let (hour, cs) ← part "hour" 2 cs
  let cs ← fixed ':' cs
  let (minute, cs) ← part "minute" 2 cs
  let cs ← fixed ':' cs
  let (second, cs) ← part "second" 2 cs
  let (nanosecond, cs) ← readFraction cs
  let (offset, cs) ← readOffset cs
  if !cs.isEmpty then throw .trailing
  let leap := second == 60
  let date ← (Date.of? year month day).elim (.error (.range "day")) .ok
  bounded "hour" 23 hour
  bounded "minute" 59 minute
  if !leap then bounded "second" 59 second
  let time ← (Time.of? hour minute (if leap then 59 else second)
    (if leap then secondNanos - 1 else nanosecond)).elim (.error (.range "second")) .ok
  let zoned ← (of? ⟨date, time⟩ offset).elim (.error (.component "offset hour")) .ok
  if leap && !zoned.admitsLeapSecond then throw (.range "second")
  return zoned

end Zoned

end SqlMapper
