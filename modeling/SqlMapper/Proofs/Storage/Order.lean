import SqlMapper.Proofs.Calendar.Order
import SqlMapper.Storage.Cell

/-! Stored dates and times in byte order. A database compares the texts that they are stored as, and
finds the order of the calendar and the clock. Zoned timestamps in UTC are an exception within a
second: one that ends where another one goes on is found behind it. -/
namespace SqlMapper.Value

open Storage (Cell)
open Text (Ascii)

/-- How the texts that two values are stored as compare byte by byte, none where a value is not
stored as a text. -/
def storedOrder? (v w : Value) : Option Ordering :=
  match Cell.ofValue v, Cell.ofValue w with
  | .ok (.text bytes), .ok (.text bytes') => some (compare bytes bytes')
  | _, _ => none

variable {v w : Value} {s t : String}

/-- Values stored as plain texts are ordered as the texts are. -/
theorem storedOrder?_of_texts (hv : Cell.ofValue v = .ok (Cell.ofText s))
    (hw : Cell.ofValue w = .ok (Cell.ofText t)) (hs : Ascii s.toList) (ht : Ascii t.toList) :
    v.storedOrder? w = some (compare s.toList t.toList) := by
  rw [storedOrder?, hv, hw, ← Text.compare_encodeUtf8 hs ht]
  rfl

/-- Dates and times without a zone are stored in their order, from year 0 on. -/
theorem storedOrder?_clock :
    (∀ d e : Date, 0 ≤ d.year → 0 ≤ e.year →
      storedOrder? (.date (some d)) (.date (some e)) = some (compare d.dayNumber e.dayNumber)) ∧
    (∀ s t : Time, storedOrder? (.time (some s)) (.time (some t)) =
      some (compare s.nanoseconds t.nanoseconds)) ∧
    ∀ s t : Timestamp, 0 ≤ s.date.year → 0 ≤ t.date.year →
      storedOrder? (.timestamp (some s)) (.timestamp (some t)) =
        some (compare s.instant t.instant) := by
  refine ⟨fun d e hd he => ?_, fun s t => ?_, fun s t hs ht => ?_⟩
  · rw [storedOrder?_of_texts rfl rfl d.ascii_text e.ascii_text, Date.compare_text hd he]
  · rw [storedOrder?_of_texts rfl rfl s.ascii_text t.ascii_text, Time.compare_text]
  · rw [storedOrder?_of_texts rfl rfl s.ascii_text t.ascii_text, Timestamp.compare_text hs ht]

/-- A leap day in year 0, and fractions of which one begins as the other one. -/
theorem storedOrder?_clock_fractions :
    let leapDay : Date := ⟨0, 2, 29, by decide⟩
    let march : Date := ⟨0, 3, 1, by decide⟩
    let tenth : Time := ⟨23, 59, 59, 100000000, by decide⟩
    let more : Time := ⟨23, 59, 59, 100000001, by decide⟩
    let whole : Time := ⟨23, 59, 59, 0, by decide⟩
    storedOrder? (.date (some leapDay)) (.date (some march)) = some .lt ∧
      storedOrder? (.time (some more)) (.time (some tenth)) = some .gt ∧
      storedOrder? (.timestamp (some ⟨leapDay, whole⟩)) (.timestamp (some ⟨leapDay, more⟩)) =
        some .lt := by
  intro leapDay march tenth more whole
  obtain ⟨hDates, hTimes, hTimestamps⟩ := storedOrder?_clock
  refine ⟨?_, ?_, ?_⟩
  · exact (hDates leapDay march (by decide) (by decide)).trans (by decide)
  · exact (hTimes more tenth).trans (by decide)
  · exact (hTimestamps ⟨leapDay, whole⟩ ⟨leapDay, more⟩ (by decide) (by decide)).trans (by decide)

/-- A zoned timestamp is stored as its text. -/
theorem ofValue_zoned {z : Zoned} (h : z.rfc3339 = .ok s) :
    Cell.ofValue (.zoned (some z)) = .ok (Cell.ofText s) := by
  rw [Cell.ofValue, h]
  rfl

/-- Zoned timestamps in UTC are stored in their order, from year 0 on, if neither extends the other
one; else they are stored the other way round. -/
theorem storedOrder?_utc (z w : Zoned) (hz : z.offset = 0) (hw : w.offset = 0)
    (hzYear : 0 ≤ z.clock.date.year) (hwYear : 0 ≤ w.clock.date.year) :
    storedOrder? (.zoned (some z)) (.zoned (some w)) =
      some (if z.Extends w ∨ w.Extends z then (compare z.instant w.instant).swap
        else compare z.instant w.instant) := by
  obtain ⟨s, hs⟩ := Zoned.exists_rfc3339_utc hz hzYear
  obtain ⟨t, ht⟩ := Zoned.exists_rfc3339_utc hw hwYear
  have hAscii := Zoned.ascii_rfc3339 hs
  have hAscii' := Zoned.ascii_rfc3339 ht
  rw [storedOrder?_of_texts (ofValue_zoned hs) (ofValue_zoned ht) hAscii hAscii',
    Zoned.compare_rfc3339 hz hw hs ht]

/-- The end of a year, and a whole second beside its half. -/
theorem storedOrder?_utc_yearEnd :
    let old : Zoned := .utc ⟨⟨2023, 12, 31, by decide⟩, ⟨23, 59, 59, 500000000, by decide⟩⟩
    let whole : Zoned := .utc ⟨⟨2024, 1, 1, by decide⟩, Time.midnight⟩
    let half : Zoned := .utc ⟨⟨2024, 1, 1, by decide⟩, ⟨0, 0, 0, 500000000, by decide⟩⟩
    storedOrder? (.zoned (some old)) (.zoned (some whole)) = some .lt ∧
      storedOrder? (.zoned (some whole)) (.zoned (some half)) = some .gt := by
  intro old whole half
  constructor
  · exact (storedOrder?_utc old whole rfl rfl (by decide) (by decide)).trans (by decide)
  · exact (storedOrder?_utc whole half rfl rfl (by decide) (by decide)).trans (by decide)

/-- A whole second is earlier than its half, and stored behind it. -/
theorem storedOrder?_utc_reversed :
    let whole : Zoned := .utc ⟨⟨2024, 1, 1, by decide⟩, Time.midnight⟩
    let half : Zoned := .utc ⟨⟨2024, 1, 1, by decide⟩, ⟨0, 0, 0, 500000000, by decide⟩⟩
    compare whole.instant half.instant = .lt ∧
      storedOrder? (.zoned (some whole)) (.zoned (some half)) = some .gt := by
  intro whole half
  decide +kernel

end SqlMapper.Value
