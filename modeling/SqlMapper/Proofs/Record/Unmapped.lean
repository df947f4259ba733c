import SqlMapper.Proofs.Record.Save
import SqlMapper.Proofs.Refusal.Statement

/-! Saving records whose entity leaves columns of the key without a property. Rows that have such a
key cannot be selected, so nothing is counted and nothing is sent; an upsert selects no rows and is
sent as it is. -/
namespace SqlMapper

open Result (FailsAs)

namespace Failure

/-- A contradiction to the declarations. -/
def Declared (f : Failure) : Prop := ∃ site reason, f = .metadata site reason

/-- An unknown column is a refusal the compilation declares. -/
theorem Unknown.declared {operation : Operation} {table : String} {f : Failure}
    (h : Unknown operation table f) : f.Declared := by
  obtain ⟨name, rfl⟩ := h
  exact ⟨_, _, rfl⟩

/-- A column without a type is a refusal the compilation declares. -/
theorem Untyped.declared {d : Dialect} {t : Table} {f : Failure} (h : Untyped d t f) :
    f.Declared := by
  obtain ⟨c, -, fault, -, -, rfl⟩ := h
  exact ⟨_, _, rfl⟩

end Failure

namespace Insert

/-- Every style of upsert has its clause. -/
theorem exists_upsertSql? {style : UpsertStyle} (h : style ≠ .none) (columns key : List Column) :
    ∃ clause, upsertSql? style columns key = some clause := by
  cases style with
  | none => exact absurd rfl h
  | onConflict => exact ⟨_, rfl⟩
  | onDuplicateKey => exact ⟨_, rfl⟩

end Insert

namespace Repository

variable {e : Entity} (r : Repository e) (record : Record e)

/-- Saving a record contradicts the declarations, which is told before anything is sent. -/
def RefusesToSave : Prop :=
  ∃ site reason, ∀ w, (r.save record).runOver w = (.error (.metadata site reason), w)

variable {r record}

/-! ### The key -/

instance (r : Repository e) : Decidable r.MapsKey :=
  inferInstanceAs (Decidable (∀ c ∈ r.table.key, (r.mapping.propertyOf? c.name).isSome))

theorem cellOf?_of_unmapped {name : String} (h : r.mapping.propertyOf? name = none) :
    r.cellOf? record name = none := by
  rw [Mapping.propertyOf?, Option.map_eq_none_iff, List.find?_eq_none] at h
  have hNone : r.mapping.entries.find? (·.1 == name) = none := by
    refine List.find?_eq_none.mpr fun entry hEntry hName => h entry hEntry ?_
    rw [beq_iff_eq.mp hName]
    exact Text.sameName_self name
  rw [cellOf?, hNone]
  rfl

/-- Among columns of which one has no property, the first without a value ends the filter. -/
theorem keyFilter_of_unmapped (record : Record e) (filter : Option Condition) {columns : List Column}
    (h : ∃ c ∈ columns, r.mapping.propertyOf? c.name = none) :
    ∃ c ∈ columns, r.keyFilter record filter columns =
      .error (.metadata { r.site .update with column := some c.name } .keyNotMapped) := by
  induction columns generalizing filter with
  | nil =>
      obtain ⟨c, hc, -⟩ := h
      cases hc
  | cons column columns ih =>
      rw [keyFilter]
      -- A column without a value may also come before the one that is known to have no property.
      cases hCell : r.cellOf? record column.name with
      | none => exact ⟨column, List.mem_cons_self .., rfl⟩
      | some v =>
          obtain ⟨c, hc, hUnmapped⟩ := h
          have hRest : ∃ c ∈ columns, r.mapping.propertyOf? c.name = none := by
            refine ⟨c, (List.mem_cons.mp hc).resolve_left ?_, hUnmapped⟩
            rintro rfl
            rw [cellOf?_of_unmapped hUnmapped] at hCell
            cases hCell
          obtain ⟨c', hc', hError⟩ :=
            ih (Condition.added filter (Condition.compare column.name .equal [v])) hRest
          exact ⟨c', List.mem_cons_of_mem column hc', hError⟩

/-- A key that is not mapped has a column without a property. -/
theorem exists_unmapped (h : ¬ r.MapsKey) :
    ∃ c ∈ r.table.key, r.mapping.propertyOf? c.name = none := by
  simpa [MapsKey] using h

/-- Without a property for a key column no condition selects the row of a record. -/
theorem keyCondition_of_unmapped (record : Record e) (h : ¬ r.MapsKey) :
    ∃ c ∈ r.table.key, r.keyCondition record =
      .error (.metadata { r.site .update with column := some c.name } .keyNotMapped) := by
  obtain ⟨c, hc, hError⟩ := keyFilter_of_unmapped record none (exists_unmapped h)
  refine ⟨c, hc, ?_⟩
  rw [keyCondition, hError]
  rfl

/-! ### The upsert -/

section Upsert

variable (record : Record e) (hKey : r.table.key ≠ [])
include hKey

/-- A record of which nothing is stored has a row that is too short for all columns. -/
theorem compileUpsert_of_nil (hEntries : r.mapping.entries = []) :
    (r.upsertion record).compileUpsert =
      .error (.compile (r.site .insert) (.rowLength 0 0 r.table.columns.length)) := by
  have hColumns : r.table.columns ≠ [] := fun hNone => hKey (by rw [Table.key, hNone]; rfl)
  have hRow : (r.rowOf record).length = 0 := by rw [length_rowOf, hEntries]; rfl
  rw [upsertion, compileUpsert_singleton record hKey, hRow, hEntries]
  exact if_neg fun hLength => hColumns (List.length_eq_zero_iff.mp hLength.symm)

/-- A row of the mapped columns can be refused only for the declarations. -/
theorem compileUpsert_declared (hEntries : r.mapping.entries ≠ []) :
    FailsAs Failure.Declared (r.upsertion record).compileUpsert := by
  rw [upsertion, compileUpsert_singleton record hKey]
  refine .bind ((Table.columnsOrAll_fails _).mono fun _ h => h.declared) fun columns hColumns => ?_
  have hNamed : r.table.columnsOf .insert (r.mapping.entries.map Prod.fst) = .ok columns := by
    rw [← hColumns, Table.columnsOrAll, if_neg]
    simpa using hEntries
  have hFits : (r.rowOf record).length = columns.length := by
    have hFound := congrArg List.length (Table.find?_of_columnsOf hNamed)
    rw [length_rowOf]
    simpa using hFound
  rw [if_pos hFits]
  have hTypes := Insert.columnTypes_fails (d := r.dialect) (Table.mem_of_columnsOrAll hColumns)
  exact (hTypes.mono fun _ h => h.declared).map

/-- What is sent for a record is one statement at most. -/
theorem compileUpsert_cases {requests? : Option (List Request)}
    (h : (r.upsertion record).compileUpsert = .ok requests?) :
    (r.dialect.upsert = .none ∧ requests? = none) ∨
      (r.dialect.upsert ≠ .none ∧ ∃ request, requests? = some [request]) := by
  rw [upsertion, compileUpsert_singleton record hKey] at h
  obtain ⟨columns, -, h⟩ := Result.bind_eq_ok_iff.mp h
  split at h
  next =>
    obtain ⟨types, -, rfl⟩ := Result.map_eq_ok_iff.mp h
    by_cases hNone : r.dialect.upsert = .none
    · exact .inl ⟨hNone, by rw [hNone]; rfl⟩
    · obtain ⟨clause, hClause⟩ := Insert.exists_upsertSql? hNone columns r.table.key
      exact .inr ⟨hNone, _, by rw [hClause]; rfl⟩
  next => cases h

end Upsert

/-! ### Saving -/

/-- An upsert that does not compile fails the save, and nothing is sent. -/
theorem save_of_error {f : Failure} (h : (r.upsertion record).compileUpsert = .error f) (w : Wire) :
    (r.save record).runOver w = (.error f, w) := by
  rw [upsertion] at h
  rw [save, h]
  rfl

/-- Without an upsert a key that is not mapped fails the save, and nothing is sent. -/
theorem save_of_none {f : Failure} (h : (r.upsertion record).compileUpsert = .ok none)
    (hKey : r.keyCondition record = .error f) (w : Wire) :
    (r.save record).runOver w = (.error f, w) := by
  rw [upsertion] at h
  rw [save, h, hKey]
  rfl

/-- An upsert that compiles is sent, whatever the mapping says of the key. -/
theorem sent_save_of_some {request : Request}
    (h : (r.upsertion record).compileUpsert = .ok (some [request])) (w : Wire) :
    ((r.save record).runOver w).2.sent = w.sent ++ [request] := by
  have hSave : r.save record = Exchange.modified (r.site .insert) request := by
    rw [upsertion] at h
    rw [save, h]
    exact Exchange.executeAll_singleton ..
  rw [hSave, Exchange.modified, Exchange.runOver_bind, Wire.runOver_execute]
  cases (w.outcome (w.sent ++ [request])).mapError (Wire.executionFailure (r.site .insert) request) <;>
    rfl

/-- An upsert that compiles refuses no record. -/
theorem not_refusesToSave_of_some {request : Request}
    (h : (r.upsertion record).compileUpsert = .ok (some [request])) : ¬ r.RefusesToSave record := by
  rintro ⟨site, reason, hRefuses⟩
  have hSent := sent_save_of_some h (.scripted .blocking [])
  rw [hRefuses] at hSent
  cases hSent

/-- What becomes of a record whose key is not mapped. -/
theorem save_cases (record : Record e) (hUnmapped : ¬ r.MapsKey) :
    (∃ f, (r.upsertion record).compileUpsert = .error f ∧
      ∀ w, (r.save record).runOver w = (.error f, w)) ∨
    (r.dialect.upsert = .none ∧ r.RefusesToSave record) ∨
    (r.dialect.upsert ≠ .none ∧ (∀ f, (r.upsertion record).compileUpsert ≠ .error f) ∧
      ¬ r.RefusesToSave record) := by
  obtain ⟨c, hc, hCondition⟩ := keyCondition_of_unmapped record hUnmapped
  cases hUpsert : (r.upsertion record).compileUpsert with
  | error f => exact .inl ⟨f, rfl, save_of_error hUpsert⟩
  | ok requests? =>
      rcases compileUpsert_cases record (List.ne_nil_of_mem hc) hUpsert with
        ⟨hNone, rfl⟩ | ⟨hSome, request, rfl⟩
      · exact .inr (.inl ⟨hNone, _, _, save_of_none hUpsert hCondition⟩)
      · exact .inr (.inr ⟨hSome, nofun, not_refusesToSave_of_some hUpsert⟩)

/-- Where the key is not mapped, saving is refused before anything is sent if rows would be counted
first, or if the upsert cannot be written. It is not where the dialect has upserts; and if no column
is mapped at all, what is reported is that the row is too short. -/
theorem refusesToSave_iff (hUnmapped : ¬ r.MapsKey) :
    (r.RefusesToSave record ↔ r.mapping.entries ≠ [] ∧
      (r.dialect.upsert = .none ∨ ∃ f, (r.upsertion record).compileUpsert = .error f)) ∧
    (r.mapping.entries = [] → ∀ w, (r.save record).runOver w =
      (.error (.compile (r.site .insert) (.rowLength 0 0 r.table.columns.length)), w)) := by
  have hKey : r.table.key ≠ [] := by
    obtain ⟨c, hc, -⟩ := exists_unmapped hUnmapped
    exact List.ne_nil_of_mem hc
  have hShort (hEntries : r.mapping.entries = []) (w : Wire) :=
    save_of_error (compileUpsert_of_nil record hKey hEntries) w
  have hMapped (hRefuses : r.RefusesToSave record) : r.mapping.entries ≠ [] := by
    intro hEntries
    obtain ⟨site, reason, hRun⟩ := hRefuses
    have hBoth := (hRun (.scripted .blocking [])).symm.trans (hShort hEntries _)
    cases hBoth
  refine ⟨?_, hShort⟩
  rcases save_cases record hUnmapped with ⟨f, hError, hRun⟩ | ⟨hNone, hRefuses⟩ | ⟨hSome, hOk, hSaves⟩
  · refine ⟨fun hRefuses => ⟨hMapped hRefuses, .inr ⟨f, hError⟩⟩, fun ⟨hEntries, _⟩ => ?_⟩
    obtain ⟨site, reason, rfl⟩ := compileUpsert_declared record hKey hEntries f hError
    exact ⟨site, reason, hRun⟩
  · exact iff_of_true hRefuses ⟨hMapped hRefuses, .inl hNone⟩
  · refine iff_of_false hSaves ?_
    rintro ⟨-, hNone | ⟨f, hError⟩⟩
    · exact hSome hNone
    · exact hOk f hError

/-- A key of two columns of which one has no property. -/
theorem refusesToSave_iff_composite :
    let e : Entity := ⟨"Grade", [⟨"mark", .integer .int32⟩, ⟨"student", .integer .int64⟩]⟩
    let t : Table := { name := "grades", columns := [
      (Column.ofTy "STUDENT" (.integer .int64)).asKey,
      .ofTy "mark" (.integer .int32),
      (Column.ofTy "course" .text).asKey] }
    let r : Repository e := ⟨t, .generic, (t.mapping e.name e.propertyNames).1, 100⟩
    let record : Record e := ⟨(⟨2, by decide⟩, ⟨7, by decide⟩, ())⟩
    ¬ r.withoutUpsert.MapsKey ∧ r.withoutUpsert.RefusesToSave record := by
  intro e t r record
  have hUnmapped : ¬ r.withoutUpsert.MapsKey := by decide
  have hEntries : r.withoutUpsert.mapping.entries ≠ [] := by decide
  exact ⟨hUnmapped, (refusesToSave_iff hUnmapped).1.mpr ⟨hEntries, .inl rfl⟩⟩

/-- An upsert that sets one column under a key without a value. -/
theorem save_unmapped_sent :
    let e : Entity := ⟨"Product", [⟨"id", .integer .int64⟩, ⟨"name", .text⟩]⟩
    let t : Table := { name := "m", columns := [
      (Column.ofTy "code" .text).asKey, .ofTy "name" .text] }
    let r : Repository e := ⟨t, .generic, (t.mapping e.name e.propertyNames).1, 100⟩
    let record : Record e := ⟨(⟨1, by decide⟩, "cup", ())⟩
    let saved := (r.save record).runOver (.scripted .streaming [])
    ¬ r.MapsKey ∧ saved.1 = .ok 0 ∧ saved.2.sent.map Request.sql =
      ["INSERT INTO m (name) VALUES\n($1)\nON CONFLICT (code) DO UPDATE SET\nname = EXCLUDED.name"] := by
  intro e t r record saved
  exact ⟨by decide, rfl, by decide +kernel⟩

end Repository

end SqlMapper
