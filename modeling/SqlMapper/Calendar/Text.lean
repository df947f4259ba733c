import SqlMapper.Calendar.Timestamp
import SqlMapper.Number.Numeral

/-!
# Text of dates and times

The layout for storage and literals is `year-month-day hour:minute:second.fraction` with four year
digits, a minus sign before Christ, and a fraction of at least one digit without further zeros at
its end. Reading accepts this layout and a few shorter ones. Messages leave the hour unpadded.
-/

namespace SqlMapper

open Numeral (padded)

/-- The digits of a fraction of a second, at least one, without zeros at the end. -/
def fractionText (nanosecond : Nat) : String :=
  let digits := ((padded 9 nanosecond).toList.reverse.dropWhile (· == '0')).reverse
  if digits.isEmpty then "0" else String.ofList digits

namespace Date

/-- `2024-02-29`. -/
def text (d : Date) : String :=
  (if d.year < 0 then "-" else "") ++ padded 4 d.year.natAbs ++ "-" ++ padded 2 d.month ++ "-" ++
    padded 2 d.day

end Date

namespace Time

/-- Minute, second and fraction, which all layouts share. -/
def afterHourText (t : Time) : String :=
  ":" ++ padded 2 t.minute ++ ":" ++ padded 2 t.second ++ "." ++ fractionText t.nanosecond

/-- `01:02:03.5`. -/
def text (t : Time) : String := padded 2 t.hour ++ t.afterHourText

/-- `1:02:03.5`. -/
def messageText (t : Time) : String := toString t.hour ++ t.afterHourText

end Time

namespace Timestamp

/-- `2024-02-29 01:02:03.5`. -/
def text (t : Timestamp) : String := t.date.text ++ " " ++ t.time.text

/-- `2024-02-29 1:02:03.5`. -/
def messageText (t : Timestamp) : String := t.date.text ++ " " ++ t.time.messageText

end Timestamp

namespace Zoned

/-- The sign of an offset and its absolute value as hours, minutes and seconds. -/
def offsetText (offset : Int) : String :=
  let n := offset.natAbs
  (if offset < 0 then "-" else "+") ++ padded 2 (n / 3600) ++ ":" ++ padded 2 (n / 60 % 60) ++
    ":" ++ padded 2 (n % 60)

/-- `2024-02-29 1:02:03.5 +02:00:00`. -/
def messageText (z : Zoned) : String := z.clock.messageText ++ " " ++ offsetText z.offset

end Zoned

/-! ### Reading -/

/-- Exactly `n` digits at the start, and what follows them. -/
def fixedDigits? (n : Nat) (cs : List Char) : Option (Nat × List Char) :=
  let ds := cs.take n
  if ds.length = n ∧ ds.all Char.isDigit then
    some (ds.foldl (fun v c => 10 * v + (Numeral.digit? c).getD 0) 0, cs.drop n)
  else none

/-- One given character at the start, and what follows it. -/
def literal? (c : Char) : List Char → Option (List Char)
  | [] => none
  | d :: cs => if d = c then some cs else none

/-- A fraction of a second in nanoseconds, of at most `limit` digits. Digits after the ninth are
skipped. -/
def fraction? (limit : Nat) (cs : List Char) : Option (Nat × List Char) :=
  let ds := (cs.takeWhile Char.isDigit).take limit
  if ds.isEmpty then none
  else
    let nine := (ds ++ List.replicate 9 '0').take 9
    some (nine.foldl (fun v c => 10 * v + (Numeral.digit? c).getD 0) 0, cs.drop ds.length)

/-- The most digits that a layout takes for a fraction. -/
def fractionLimit : Nat := 32

/-- Which parts of a time of day a layout has. -/
inductive TimeLayout where
  | toFraction
  | toSecond
  | toMinute
  deriving DecidableEq, Repr

/-- A date at the start, its year with an optional sign. -/
def date? (cs : List Char) : Option (Date × List Char) := do
  let (negative, cs) := match cs with
    | '-' :: cs => (true, cs)
    | '+' :: cs => (false, cs)
    | cs => (false, cs)
  let (year, cs) ← fixedDigits? 4 cs
  let cs ← literal? '-' cs
  let (month, cs) ← fixedDigits? 2 cs
  let cs ← literal? '-' cs
  let (day, cs) ← fixedDigits? 2 cs
  let date ← Date.of? (if negative then -(year : Int) else year) month day
  some (date, cs)

def time? (layout : TimeLayout) (cs : List Char) : Option (Time × List Char) := do
  let (hour, cs) ← fixedDigits? 2 cs
  let cs ← literal? ':' cs
  let (minute, cs) ← fixedDigits? 2 cs
  if layout = .toMinute then
    let time ← Time.of? hour minute 0 0
    some (time, cs)
  else
    let cs ← literal? ':' cs
    let (second, cs) ← fixedDigits? 2 cs
    if layout = .toSecond then
      let time ← Time.of? hour minute second 0
      some (time, cs)
    else
      let cs ← literal? '.' cs
      let (nanosecond, cs) ← fraction? fractionLimit cs
      let time ← Time.of? hour minute second nanosecond
      some (time, cs)

/-- What was read, when nothing follows it. -/
def whole? : Option (α × List Char) → Option α
  | some (a, []) => some a
  | _ => none

/-- The first of several readings that succeeds. -/
def firstSome (readings : List (Option α)) : Option α :=
  readings.foldr (fun reading rest => reading.orElse fun _ => rest) none

namespace Date

def read? (s : String) : Option Date := whole? (date? s.toList)

end Date

namespace Time

/-- The time of day that a text denotes, with or without fraction and seconds. -/
def read? (s : String) : Option Time :=
  firstSome ([.toFraction, .toSecond, .toMinute].map fun layout => whole? (time? layout s.toList))

end Time

namespace Timestamp

/-- A date, a separating character and a time of day. -/
def readWith? (separator : Char) (layout : TimeLayout) (cs : List Char) : Option Timestamp := do
  let (date, cs) ← date? cs
  let cs ← literal? separator cs
  let time ← whole? (time? layout cs)
  some ⟨date, time⟩

/-- The timestamp that a text denotes: date and time are separated by a blank or a `T`, and the
fraction may be missing. -/
def read? (s : String) : Option Timestamp :=
  let cs := s.toList
  firstSome [readWith? ' ' .toFraction cs, readWith? 'T' .toFraction cs,
    readWith? ' ' .toSecond cs, readWith? 'T' .toSecond cs]

end Timestamp

end SqlMapper
