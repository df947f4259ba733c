import SqlMapper.Proofs.Calendar.Instant
import SqlMapper.Value.Coercion

/-! Timestamps with and without a place, coerced into each other. The clock that is read is the one in
UTC, so the instant stays. -/
namespace SqlMapper.Ty

/-- A zoned timestamp is read as the timestamp of the same instant. -/
theorem toTimestamp_zoned_eq_ok_iff {z : Zoned} {t : Timestamp} :
    toTimestamp (.zoned (some z)) = .ok t ↔ t.instant = z.instant := by
  rw [← Zoned.clockUtc?_eq_some_iff, toTimestamp]
  cases z.clockUtc? with
  | none => simp
  | some u => simp

/-- A zoned timestamp whose date in UTC is one of the calendar becomes the one reading of a clock in UTC
that has its instant, and this reading becomes the same instant without an offset. A reading that is
taken as UTC comes back. -/
theorem conversions_keep_instant :
    (∀ z : Zoned, z.InCalendar → ∃ t : Timestamp, timestamp.ofValue (.zoned (some z)) = .ok t ∧
      (∀ u : Timestamp, u.instant = z.instant ↔ u = t) ∧
      ∃ w : Zoned, zoned.ofValue (.timestamp (some t)) = .ok w ∧ w.instant = z.instant ∧
        w.offset = 0) ∧
    ∀ t : Timestamp, ∃ w : Zoned, zoned.ofValue (.timestamp (some t)) = .ok w ∧
      timestamp.ofValue (.zoned (some w)) = .ok t := by
  constructor
  · intro z hInside
    obtain ⟨t, hClock⟩ := hInside.exists_clockUtc?
    have hInstant : t.instant = z.instant := Zoned.clockUtc?_eq_some_iff.mp hClock
    refine ⟨t, toTimestamp_zoned_eq_ok_iff.mpr hInstant, fun u => ?_, Zoned.utc t, rfl, ?_, rfl⟩
    · constructor
      · intro h
        exact Timestamp.eq_of_instant (h.trans hInstant.symm)
      · rintro rfl
        exact hInstant
    · rw [Zoned.instant_utc, hInstant]
  · intro t
    exact ⟨Zoned.utc t, rfl, toTimestamp_zoned_eq_ok_iff.mpr (Zoned.instant_utc t).symm⟩

/-- Half a second before midnight in UTC, on a leap day, while local clocks are an hour and a second
ahead. -/
theorem conversions_keep_instant_leapDay :
    let ahead : Timestamp := ⟨⟨2024, 3, 1, by decide⟩, ⟨1, 0, 0, 500000000, by decide⟩⟩
    let z : Zoned := ⟨ahead, 3601, by decide⟩
    let t : Timestamp := ⟨⟨2024, 2, 29, by decide⟩, ⟨23, 59, 59, 500000000, by decide⟩⟩
    z.InCalendar ∧ timestamp.ofValue (.zoned (some z)) = .ok t ∧
      ∃ w : Zoned, zoned.ofValue (.timestamp (some t)) = .ok w ∧ w.instant = z.instant ∧
        w.offset = 0 := by
  intro ahead z t
  have hInstant : t.instant = z.instant := by decide
  have hInside : z.InCalendar := Zoned.inCalendar_of_instant hInstant
  obtain ⟨u, hRead, hUnique, hBack⟩ := conversions_keep_instant.1 z hInside
  obtain rfl : t = u := (hUnique t).mp hInstant
  exact ⟨hInside, hRead, hBack⟩

end SqlMapper.Ty
