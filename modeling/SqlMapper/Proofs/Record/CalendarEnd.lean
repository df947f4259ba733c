import SqlMapper.Proofs.Calendar.Instant
import SqlMapper.Proofs.Result
import SqlMapper.Proofs.Value.RoundTrip
import SqlMapper.Record.Repository

/-! Cells that end the run. Every cell becomes a value of a type or is refused with a report, but for one
kind: a zoned timestamp that is to be a clock reading in UTC and has none in the calendar. A row with such
a cell is neither a record nor a mapping that failed. -/
namespace SqlMapper

open Result (FailsAs)

/-! ### Values -/

namespace Ty

variable {α ε : Type} {t : Ty} {v : Value}

/-- Coercing the cell comes upon an instant that a clock in UTC does not show, before it comes upon
anything that it refuses. -/
inductive Overruns : Ty → Value → Prop
  | timestamp {z : Zoned} (h : ¬ z.InCalendar) : Overruns .timestamp (.zoned (some z))
  | option {t : Ty} {v : Value} (h : Overruns t v) : Overruns t.option v
  | vec {t : Ty} {before after : List Value} {v element : Value}
      (hBefore : ∀ u ∈ before, ∃ a, t.ofValue u = .ok a) (h : Overruns t v) :
      Overruns t.vec (.list (some (before ++ v :: after)) element)

/-- An optional type overruns exactly where the type does. -/
theorem overruns_option_iff : t.option.Overruns v ↔ t.Overruns v := by
  constructor
  · intro h
    cases h with
    | option h => exact h
  · exact .option

/-- A list overruns at its first element that does, when all before it convert. -/
theorem overruns_vec_iff {items : List Value} {element : Value} :
    t.vec.Overruns (.list (some items) element) ↔ ∃ before v after, items = before ++ v :: after ∧
      (∀ u ∈ before, ∃ a, t.ofValue u = .ok a) ∧ t.Overruns v := by
  constructor
  · intro h
    cases h with
    | vec hBefore hEnd => exact ⟨_, _, _, rfl, hBefore, hEnd⟩
  · rintro ⟨before, v, after, rfl, hBefore, hEnd⟩
    exact .vec hBefore hEnd

/-- `NULL` overruns nothing. -/
theorem Overruns.isNull_eq_false (h : t.Overruns v) : v.isNull = false := by
  induction h with
  | timestamp => rfl
  | option _ ih => exact ih
  | vec => rfl

/-- The coercion gives a value, or an error to report. -/
def Reports (x : Coerced α) : Prop := FailsAs (· ≠ .calendarEnd) x

@[simp] theorem reports_ok (a : α) : Reports (.ok a : Coerced α) := FailsAs.ok a

@[simp] theorem reports_error_iff {error : CoercionError} :
    Reports (.error error : Coerced α) ↔ error ≠ .calendarEnd :=
  ⟨fun h => h error rfl, fun h => FailsAs.error h⟩

@[simp] theorem reports_parse (t : Ty) (wrap : ε → ReadingError) (read : String → Except ε α)
    (s : String) : Reports (parse t wrap read s) := by
  unfold parse
  split <;> simp

@[simp] theorem reports_parseLayout (t : Ty) (read : String → Option α) (s : String) :
    Reports (parseLayout t read s) := by
  unfold parseLayout
  split <;> simp

@[simp] theorem reports_elim {error : CoercionError} (a? : Option α) (h : error ≠ .calendarEnd) :
    Reports (a?.elim (.error error) .ok : Coerced α) := by
  cases a? <;> simp [h]

@[simp] theorem reports_mapError {wrap : ε → CoercionError} (x : Except ε α)
    (h : ∀ e, wrap e ≠ .calendarEnd) : Reports (x.mapError wrap) := by
  cases x <;> simp [Except.mapError, h]

/-- A coercion that reports its errors ends no run. -/
theorem Reports.eq_calendarEnd_iff {x : Coerced α} {p : Prop} (h : Reports x) (hp : ¬ p) :
    x = .error .calendarEnd ↔ p :=
  ⟨fun hEnd => absurd rfl (h _ hEnd), fun h => absurd h hp⟩

/-- Reading an integer meets no end of the calendar. -/
theorem reports_toInteger (k : IntegerKind) (v : Value) : Reports (toInteger k v) := by
  unfold toInteger
  split <;> simp

/-- Reading a boolean meets no end of the calendar. -/
theorem reports_toBoolean (v : Value) : Reports (toBoolean v) := by
  unfold toBoolean
  split
  case h_3 => dsimp only; split_ifs <;> simp
  all_goals simp

theorem reports_toFloat (p : Precision) (v : Value) : Reports (toFloat p v) := by
  unfold toFloat
  split <;> simp

theorem reports_toDecimal (v : Value) : Reports (toDecimal v) := by
  unfold toDecimal
  split <;> simp

theorem reports_toText (v : Value) : Reports (toText v) := by
  unfold toText
  split <;> simp

theorem reports_toBlob (v : Value) : Reports (toBlob v) := by
  unfold toBlob
  split <;> simp

theorem reports_toDate (v : Value) : Reports (toDate v) := by
  unfold toDate
  split <;> simp

theorem reports_toTime (v : Value) : Reports (toTime v) := by
  unfold toTime
  split <;> simp

/-- Reading a zoned timestamp meets no end of the calendar: it is not moved to UTC. -/
theorem reports_toZoned (v : Value) : Reports (toZoned v) := by
  unfold toZoned
  split <;> simp

theorem reports_toUuid (v : Value) : Reports (toUuid v) := by
  unfold toUuid
  split <;> simp

/-- Only the clock in UTC may leave the calendar. -/
theorem toTimestamp_eq_calendarEnd_iff :
    toTimestamp v = .error .calendarEnd ↔ timestamp.Overruns v := by
  constructor
  · intro h
    unfold toTimestamp at h
    split at h
    next => cases h
    next z =>
      cases hClock : z.clockUtc? with
      | none => exact .timestamp (Zoned.clockUtc?_eq_none_iff.mp hClock)
      | some t =>
          rw [hClock] at h
          cases h
    next s => exact absurd rfl (reports_parseLayout timestamp Timestamp.read? s _ h)
    next => cases h
  · rintro ⟨hOutside⟩
    rw [toTimestamp, Zoned.clockUtc?_eq_none_iff.mpr hOutside]
    rfl

/-- A list fails with the error of the first element that has one. -/
theorem coerceAll_eq_error_iff {coerce : Value → Coerced α} {items : List Value}
    {error : CoercionError} : coerceAll coerce items = .error error ↔
      ∃ before v after, items = before ++ v :: after ∧ (∀ u ∈ before, ∃ a, coerce u = .ok a) ∧
        coerce v = .error error := by
  induction items with
  | nil => simp [coerceAll]
  | cons u items ih =>
      simp only [List.cons_eq_append_iff]
      cases hFirst : coerce u with
      | error e =>
          have hAll : coerceAll coerce (u :: items) = .error e := by
            rw [coerceAll, hFirst]
            rfl
          rw [hAll, Except.error.injEq]
          constructor
          · rintro rfl
            exact ⟨[], u, items, .inl ⟨rfl, rfl⟩, by simp, hFirst⟩
          · rintro ⟨before, v, after, ⟨rfl, hHead⟩ | ⟨_, rfl, -⟩, hBefore, hError⟩
            · obtain ⟨rfl, -⟩ := List.cons.inj hHead
              exact Except.error.inj (hFirst.symm.trans hError)
            · obtain ⟨a, hOk⟩ := hBefore u (List.mem_cons_self ..)
              rw [hFirst] at hOk
              cases hOk
      | ok a =>
          have hAll : coerceAll coerce (u :: items) = .error error ↔
              coerceAll coerce items = .error error := by
            rw [coerceAll, hFirst]
            cases coerceAll coerce items <;> simp [bind, Except.bind, pure, Except.pure]
          rw [hAll, ih]
          constructor
          · rintro ⟨before, v, after, rfl, hBefore, hError⟩
            exact ⟨u :: before, v, after, .inr ⟨before, rfl, rfl⟩,
              List.forall_mem_cons.mpr ⟨⟨a, hFirst⟩, hBefore⟩, hError⟩
          · rintro ⟨before, v, after, ⟨rfl, hHead⟩ | ⟨rest, rfl, rfl⟩, hBefore, hError⟩
            · obtain ⟨rfl, -⟩ := List.cons.inj hHead
              rw [hFirst] at hError
              cases hError
            · exact ⟨rest, v, after, rfl, (List.forall_mem_cons.mp hBefore).2, hError⟩

/-- A coercion ends the run exactly if it overruns the calendar. -/
theorem ofValue_eq_calendarEnd_iff (t : Ty) (v : Value) :
    t.ofValue v = .error .calendarEnd ↔ t.Overruns v := by
  induction t generalizing v with
  | boolean => exact (reports_toBoolean v).eq_calendarEnd_iff nofun
  | integer k => exact (reports_toInteger k v).eq_calendarEnd_iff nofun
  | float p => exact (reports_toFloat p v).eq_calendarEnd_iff nofun
  | decimal => exact (reports_toDecimal v).eq_calendarEnd_iff nofun
  | text => exact (reports_toText v).eq_calendarEnd_iff nofun
  | blob => exact (reports_toBlob v).eq_calendarEnd_iff nofun
  | date => exact (reports_toDate v).eq_calendarEnd_iff nofun
  | time => exact (reports_toTime v).eq_calendarEnd_iff nofun
  | timestamp => exact toTimestamp_eq_calendarEnd_iff
  | zoned => exact (reports_toZoned v).eq_calendarEnd_iff nofun
  | uuid => exact (reports_toUuid v).eq_calendarEnd_iff nofun
  | option t ih =>
      rw [overruns_option_iff]
      cases hNull : v.isNull with
      | true =>
          -- A NULL is read as missing, and none overruns the calendar.
          rw [ofValue_option_of_isNull t hNull]
          apply (reports_ok _).eq_calendarEnd_iff
          intro h
          rw [h.isNull_eq_false] at hNull
          cases hNull
      | false =>
          have hRead : t.option.ofValue v = (t.ofValue v).map some := if_neg (by simp [hNull])
          rw [hRead, ← ih]
          exact Result.map_eq_error_iff
  | vec t ih =>
      cases v with
      | list items element =>
          cases items with
          | none => exact (reports_error_iff.mpr (by simp)).eq_calendarEnd_iff nofun
          | some items =>
              have hRead : t.vec.ofValue (.list (some items) element) = coerceAll t.ofValue items := rfl
              rw [hRead, overruns_vec_iff]
              simp only [← ih]
              exact coerceAll_eq_error_iff
      | _ => exact (reports_error_iff.mpr (by simp)).eq_calendarEnd_iff nofun

end Ty

/-! ### Records -/

namespace Fields

variable {name : String} {ps : List Property} {v : Value}

/-- Setting a property fails with the error of coercing into the first of that name. -/
theorem set?_eq_error_iff {f : Fields ps} {error : CoercionError} :
    set? name v ps f = some (.error error) ↔
      ∃ p, ps.find? (name = ·.name) = some p ∧ p.type.ofValue v = .error error := by
  induction ps with
  | nil => simp [set?]
  | cons p ps ih =>
      obtain ⟨a, rest⟩ := f
      by_cases hName : name = p.name
      · have hSet : set? name v (p :: ps) (a, rest) = some ((p.type.ofValue v).map (·, rest)) :=
          if_pos hName
        have hFind : (p :: ps).find? (name = ·.name) = some p :=
          List.find?_cons_of_pos (decide_eq_true hName)
        rw [hFind]
        constructor
        · intro h
          exact ⟨p, rfl, Result.map_eq_error_iff.mp (Option.some.inj (hSet.symm.trans h))⟩
        · rintro ⟨q, hFound, hError⟩
          obtain rfl := Option.some.inj hFound
          exact hSet.trans (congrArg some (Result.map_eq_error_iff.mpr hError))
      · have hSet : set? name v (p :: ps) (a, rest) =
            (set? name v ps rest).map fun result => result.map (a, ·) := if_neg hName
        have hFind : (p :: ps).find? (name = ·.name) = ps.find? (name = ·.name) :=
          List.find?_cons_of_neg (by simpa using hName)
        rw [hFind, ← ih (f := rest)]
        constructor
        · intro h
          obtain ⟨result, hRest, hError⟩ := Option.map_eq_some_iff.mp (hSet.symm.trans h)
          rw [hRest, Result.map_eq_error_iff.mp hError]
        · intro hRest
          exact hSet.trans (Option.map_eq_some_iff.mpr ⟨_, hRest, rfl⟩)

end Fields

namespace Record

variable {e : Entity} {name : String} {v : Value} {report : List Fault → Failure}

/-- Some property of the name would have to hold a clock reading that the calendar does not have. -/
def Overruns (e : Entity) (name : String) (v : Value) : Prop :=
  ∃ p, e.properties.find? (name = ·.name) = some p ∧ p.type.Overruns v

/-- A failure to set a property is reported as the caller wants it, unless the cell ends the run. -/
theorem set_fails_reported (r : Record e) (name : String) (v : Value) :
    FailsAs (fun f => f = .ended ∧ Overruns e name v ∨ ∃ faults, f = report faults)
      (r.set report name v) := by
  unfold Record.set
  split
  next => exact .error (.inr ⟨_, rfl⟩)
  next => exact .ok _
  next error hSet =>
    apply FailsAs.error
    cases error with
    | calendarEnd =>
        obtain ⟨p, hFound, hError⟩ := Fields.set?_eq_error_iff.mp hSet
        exact .inl ⟨rfl, p, hFound, (Ty.ofValue_eq_calendarEnd_iff ..).mp hError⟩
    | _ => exact .inr ⟨_, rfl⟩

/-- Setting a property to a value that overruns it ends the run. -/
theorem set_eq_ended_of_overruns (r : Record e) (h : Overruns e name v) :
    r.set report name v = .error .ended := by
  obtain ⟨p, hFound, hEnd⟩ := h
  have hSet : Fields.set? name v e.properties r.fields = some (.error .calendarEnd) :=
    Fields.set?_eq_error_iff.mpr ⟨p, hFound, (Ty.ofValue_eq_calendarEnd_iff ..).mpr hEnd⟩
  rw [Record.set, hSet]
  rfl

end Record

/-! ### Rows -/

namespace Mapping

variable {m : Mapping} {e : Entity} {record : Record e}

/-- The failure tells that the cell does not fit the property that its column is mapped to. -/
def Blames (m : Mapping) (cell : String × Value) (f : Failure) : Prop :=
  ∃ property faults, m.propertyOf? cell.1 = some property ∧
    f = .of (.mapping ⟨.mapping, m.table, some cell.1⟩ (.property m.entity property faults))

/-- The column of the cell is mapped to a property that the cell overruns the calendar for. -/
def CellOverruns (m : Mapping) (e : Entity) (cell : String × Value) : Prop :=
  ∃ property, m.propertyOf? cell.1 = some property ∧ Record.Overruns e property cell.2

/-- Cells are wrapped one at a time. -/
theorem wrapCells_cons (m : Mapping) (record : Record e) (cell : String × Value)
    (rest : List (String × Value)) : m.wrapCells record (cell :: rest) =
      m.wrapCells record [cell] >>= fun next => m.wrapCells next rest := by
  rw [wrapCells, wrapCells]
  cases m.propertyOf? cell.1 with
  | none => rfl
  | some property =>
      dsimp only
      cases record.set _ property cell.2 <;> rfl

/-- Cells are wrapped in their order, so a row may be cut anywhere. -/
theorem wrapCells_append (m : Mapping) (record : Record e) (before after : List (String × Value)) :
    m.wrapCells record (before ++ after) =
      m.wrapCells record before >>= fun next => m.wrapCells next after := by
  induction before generalizing record with
  | nil => rfl
  | cons cell before ih =>
      rw [List.cons_append, wrapCells_cons, wrapCells_cons m record cell before]
      cases m.wrapCells record [cell] with
      | error f => rfl
      | ok next => exact ih next

/-- One cell is taken, is blamed, or ends the run. -/
theorem wrapCell_fails (m : Mapping) (record : Record e) (cell : String × Value) :
    FailsAs (fun f => f = .ended ∧ m.CellOverruns e cell ∨ m.Blames cell f)
      (m.wrapCells record [cell]) := by
  rw [wrapCells]
  split
  next => exact .ok _
  next property hProperty =>
    apply FailsAs.bind
    · refine (record.set_fails_reported property cell.2).mono ?_
      rintro f (⟨hEnded, hEnd⟩ | ⟨faults, hReported⟩)
      · exact .inl ⟨hEnded, property, hProperty, hEnd⟩
      · exact .inr ⟨property, faults, hProperty, hReported⟩
    · intro next _
      exact .ok next

/-- Wrapping a cell that overruns its property ends the run. -/
theorem wrapCell_eq_ended_of_overruns {cell : String × Value} (h : m.CellOverruns e cell) :
    m.wrapCells record [cell] = .error .ended := by
  obtain ⟨property, hProperty, hEnd⟩ := h
  rw [wrapCells, hProperty]
  dsimp only
  rw [record.set_eq_ended_of_overruns hEnd]
  rfl

/-- A row ends the run exactly at a cell that overruns the calendar, after cells that are taken. -/
theorem wrapCells_eq_ended_iff {cells : List (String × Value)} :
    m.wrapCells record cells = .error .ended ↔ ∃ before cell after, cells = before ++ cell :: after ∧
      (∃ next, m.wrapCells record before = .ok next) ∧ m.CellOverruns e cell := by
  constructor
  · intro h
    induction cells generalizing record with
    | nil => cases h
    | cons cell rest ih =>
        rw [wrapCells_cons] at h
        cases hCell : m.wrapCells record [cell] with
        | error f =>
            rw [hCell] at h
            obtain rfl : f = .ended := Except.error.inj h
            rcases m.wrapCell_fails record cell _ hCell with ⟨-, hEnd⟩ | ⟨_, _, -, hReported⟩
            · exact ⟨[], cell, rest, rfl, ⟨record, rfl⟩, hEnd⟩
            · cases hReported
        | ok next =>
            rw [hCell] at h
            obtain ⟨before, other, after, rfl, ⟨later, hBefore⟩, hEnd⟩ := ih h
            have hTaken : m.wrapCells record (cell :: before) = .ok later := by
              rw [wrapCells_cons, hCell]
              exact hBefore
            exact ⟨cell :: before, other, after, rfl, ⟨later, hTaken⟩, hEnd⟩
  · rintro ⟨before, cell, after, rfl, ⟨next, hBefore⟩, hEnd⟩
    have hRest : m.wrapCells next (cell :: after) = .error .ended := by
      rw [wrapCells_cons, wrapCell_eq_ended_of_overruns hEnd]
      rfl
    rw [wrapCells_append, hBefore]
    exact hRest

/-- Wrapping fails at the end of the calendar, or with a failure that blames a cell. -/
theorem wrapCells_fails_reported (m : Mapping) (record : Record e) (cells : List (String × Value)) :
    FailsAs (fun f => f = .ended ∨ ∃ cell ∈ cells, m.Blames cell f) (m.wrapCells record cells) := by
  induction cells generalizing record with
  | nil => exact .ok _
  | cons cell rest ih =>
      rw [wrapCells_cons]
      apply FailsAs.bind
      · refine (m.wrapCell_fails record cell).mono ?_
        rintro f (⟨hEnded, -⟩ | hBlames)
        · exact .inl hEnded
        · exact .inr ⟨cell, List.mem_cons_self .., hBlames⟩
      · intro next _
        refine (ih next).mono ?_
        rintro f (hEnded | ⟨other, hOther, hBlames⟩)
        · exact .inl hEnded
        · exact .inr ⟨other, List.mem_cons_of_mem _ hOther, hBlames⟩

end Mapping

/-- A cell gives a value or an error to report for every type, but where it overruns the calendar: then
the run ends. A row gives a record or a failed mapping of one of its cells, but where such a cell is mapped
and the cells before it are taken: then the run ends, too. -/
theorem calendarEnd_iff_overruns (t : Ty) (v : Value) (m : Mapping) (e : Entity) (row : Row) :
    (t.ofValue v = .error .calendarEnd ↔ t.Overruns v) ∧
    (m.wrap e row = .error .ended ↔ ∃ before cell after, row.cells = before ++ cell :: after ∧
      (∃ record, m.wrapCells (Record.initial e) before = .ok record) ∧ m.CellOverruns e cell) ∧
    ∀ f, m.wrap e row = .error f → f = .ended ∨ ∃ cell ∈ row.cells, m.Blames cell f :=
  ⟨Ty.ofValue_eq_calendarEnd_iff t v, Mapping.wrapCells_eq_ended_iff,
    m.wrapCells_fails_reported (Record.initial e) row.cells⟩

/-- A list of timestamps that may be missing. The second one is in the first hour of the calendar where
clocks are an hour ahead of UTC. A row with the list ends the run, and one with a boolean is blamed. -/
theorem calendarEnd_iff_overruns_list :
    let z : Zoned := ⟨Timestamp.first, 3600, by decide⟩
    let v : Value := .list (some [.timestamp none, .zoned (some z), .boolean (some true)]) .null
    let t : Ty := .vec (.option .timestamp)
    let e : Entity := ⟨"Log", [⟨"times", t⟩]⟩
    let m : Mapping := ⟨"Log", "log", [("at", "times")]⟩
    let other : Value := .boolean (some true)
    t.Overruns v ∧ t.ofValue v = .error .calendarEnd ∧
      m.wrap e ⟨["at"], [v]⟩ = .error .ended ∧
      ∃ f, m.wrap e ⟨["at"], [other]⟩ = .error f ∧ m.Blames ("at", other) f := by
  intro z v t e m other
  have hOutside : ¬ z.InCalendar := Zoned.clockUtc?_eq_none_iff.mp rfl
  have hMissing : ∀ u ∈ [Value.timestamp none], ∃ a, (Ty.option .timestamp).ofValue u = .ok a := by
    intro u hu
    obtain rfl := List.mem_singleton.mp hu
    exact ⟨none, rfl⟩
  have hOverruns : t.Overruns v := .vec hMissing (.option (.timestamp hOutside))
  have hMapped : m.propertyOf? "at" = some "times" := by decide
  obtain ⟨hValue, hRow, -⟩ := calendarEnd_iff_overruns t v m e ⟨["at"], [v]⟩
  have hEnds : m.wrap e ⟨["at"], [v]⟩ = .error .ended :=
    hRow.mpr ⟨[], ("at", v), [], rfl, ⟨_, rfl⟩, "times", hMapped, ⟨"times", t⟩, rfl, hOverruns⟩
  have hFails : m.wrap e ⟨["at"], [other]⟩ = .error (.of (.mapping ⟨.mapping, "log", some "at"⟩
      (.property "Log" "times" (CoercionError.mismatch other t).faults))) := rfl
  refine ⟨hOverruns, hValue.mpr hOverruns, hEnds, _, hFails, ?_⟩
  obtain ⟨-, -, hReported⟩ := calendarEnd_iff_overruns t v m e ⟨["at"], [other]⟩
  rcases hReported _ hFails with hEnded | ⟨cell, hCell, hBlames⟩
  · cases hEnded
  · obtain rfl := List.mem_singleton.mp hCell
    exact hBlames

/-- No clock in UTC reads the first hour of the calendar where clocks are ahead of it. -/
theorem calendarEnd_reached :
    let z : Zoned := ⟨⟨⟨-9999, 1, 1, by decide⟩, ⟨0, 0, 0, 0, by decide⟩⟩, 3600, by decide⟩
    Ty.timestamp.ofValue (.zoned (some z)) = .error .calendarEnd ∧
      ¬ Ty.Reports (Ty.timestamp.ofValue (.zoned (some z))) := by
  intro z
  have hEnd : Ty.timestamp.ofValue (.zoned (some z)) = .error .calendarEnd := rfl
  exact ⟨hEnd, fun h => h _ hEnd rfl⟩

end SqlMapper
