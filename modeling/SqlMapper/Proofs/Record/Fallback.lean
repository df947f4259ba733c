import SqlMapper.Proofs.Condition.Leaves
import SqlMapper.Proofs.Record.Insertion
import SqlMapper.Proofs.Store.Compiled

/-! Saving a record without an upsert. What has been compiled before rows are counted decides whether
the insertion and the update compile that may follow. -/
namespace SqlMapper

namespace Condition

/-- What is added to a filter does not leave it empty. -/
theorem isEmpty_of_added {filter : Option Condition} {c next : Condition}
    (hNext : next.isEmpty = false) (h : added filter next = some c) : c.isEmpty = false := by
  obtain rfl := Option.some.inj h
  cases filter with
  | none => exact hNext
  | some f => simp [Condition.and, isEmpty_link, hNext]

/-- A condition that is not empty takes effect. -/
theorem effective_of_not_isEmpty {c : Condition} (h : c.isEmpty = false) :
    effective (some c) = some c :=
  Option.filter_eq_some_iff.mpr ⟨rfl, by simpa using h⟩

end Condition

namespace Table

variable {t : Table} {operation operation' : Operation} {name : String} {c : Column}

/-- Names that have been looked up together lead to columns among those found. -/
theorem exists_mem_of_columnsOf {names : List String} {columns : List Column}
    (h : t.columnsOf operation names = .ok columns) (hName : name ∈ names) :
    ∃ c ∈ columns, t.find? name = some c := by
  have hFound : t.find? name ∈ columns.map some := by
    rw [← Table.find?_of_columnsOf h]
    exact List.mem_map_of_mem hName
  obtain ⟨c, hc, hSome⟩ := List.mem_map.mp hFound
  exact ⟨c, hc, hSome.symm⟩

end Table

namespace Update

variable {d : Dialect} {t : Table}

/-- Assignments to columns that are found and have types can be written. -/
theorem exists_assignmentSql {assignments : List (String × Value)}
    (h : ∀ cell ∈ assignments, ∃ c type, t.find? cell.1 = some c ∧
      d.columnType t.name c = .ok type) :
    ∃ columns parts, resolved t assignments = .ok columns ∧
      assignmentSql d t.name columns = .ok parts := by
  induction assignments with
  | nil => exact ⟨[], [], rfl, rfl⟩
  | cons cell rest ih =>
      rw [List.forall_mem_cons] at h
      obtain ⟨⟨c, type, hFind, hType⟩, hRest⟩ := h
      obtain ⟨columns, parts, hColumns, hParts⟩ := ih hRest
      refine ⟨(c, cell.2) :: columns, [.name c.name, .text " = ", .bind cell.2 type] :: parts, ?_, ?_⟩
      · simp only [resolved, Result.bind_eq_ok_iff]
        exact ⟨c, Table.column_of_find? hFind, columns, hColumns, rfl⟩
      · simp only [assignmentSql, Result.bind_eq_ok_iff]
        exact ⟨type, hType, parts, hParts, rfl⟩

end Update

namespace Repository

variable {e : Entity} {r : Repository e} {record : Record e} {c : Condition} {columns : List Column}
  {types : List String}

/-- A record whose upsert is checked fits the columns that insertions fill. -/
theorem fills_of_compileUpsert {requests? : Option (List Request)}
    (h : { r.insertion [record] with upsert := true }.compileUpsert = .ok requests?) :
    ∃ columns types, r.Fills columns types := by
  obtain ⟨columns, types, hColumns, hMisfit, hTypes, -⟩ := Insert.resolved_of_compileUpsert h
  have hLength := Insert.length_of_misfit? hMisfit _ (List.mem_singleton_self (r.rowOf record))
  exact ⟨columns, types, hColumns, hTypes, hLength.symm.trans (length_rowOf record)⟩

/-- A row is never selected by an empty condition. -/
theorem not_isEmpty_of_keyFilter {filter : Option Condition} {key : List Column}
    (hFilter : ∀ c, filter = some c → c.isEmpty = false)
    (h : r.keyFilter record filter key = .ok (some c)) : c.isEmpty = false := by
  induction key generalizing filter with
  | nil => exact hFilter c (Except.ok.inj h)
  | cons k key ih =>
      rw [keyFilter] at h
      split at h
      next => cases h
      next v _ => exact ih (fun _ hAdded => Condition.isEmpty_of_added rfl hAdded) h

/-- The condition on the key of a record is never empty. -/
theorem not_isEmpty_of_keyCondition (h : r.keyCondition record = .ok c) : c.isEmpty = false := by
  obtain ⟨filter?, hFilter, h⟩ := Result.bind_eq_ok_iff.mp h
  cases filter? with
  | none => cases h
  | some c' =>
      obtain rfl := Except.ok.inj h
      exact not_isEmpty_of_keyFilter (by simp) hFilter

/-- An update sets columns that insertions fill. -/
theorem find?_of_updateOf? (hFills : r.Fills columns types) {u : Update}
    (h : r.updateOf? record c = some u) :
    ∀ cell ∈ u.assignments, ∃ c ∈ columns, r.table.find? cell.1 = some c := by
  rw [updateOf?] at h
  split at h
  next => cases h
  next =>
    obtain rfl := Option.some.inj h
    intro cell hCell
    obtain ⟨hValue, -⟩ := List.mem_filter.mp hCell
    obtain ⟨entry, hEntry, hSome⟩ := List.mem_filterMap.mp hValue
    obtain ⟨v, -, rfl⟩ := Option.map_eq_some_iff.mp hSome
    have hName : entry.1 ∈ r.mapping.entries.map Prod.fst := List.mem_map_of_mem hEntry
    have hResolved := hFills.resolved
    rw [Table.columnsOrAll, if_neg] at hResolved
    · exact Table.exists_mem_of_columnsOf hResolved hName
    · simpa using List.ne_nil_of_mem hEntry

/-- The update of a counted record compiles: its columns are those of the insertion, and its filter is
that of the count. -/
theorem compile_updateOf? (hFills : r.Fills columns types) (hKey : r.keyCondition record = .ok c)
    {count : Request} (hCount : (r.query.narrow c).countRequest = .ok count) {u : Update}
    (h : r.updateOf? record c = some u) : ∃ request, u.compile = .ok request := by
  have hTyped : ∀ cell ∈ u.assignments, ∃ c type, r.table.find? cell.1 = some c ∧
      r.dialect.columnType r.table.name c = .ok type := by
    intro cell hCell
    obtain ⟨column, hColumn, hFind⟩ := find?_of_updateOf? hFills h cell hCell
    exact ⟨column, _, hFind, (Insert.columnTypes_eq_ok hFills.typed).2 column hColumn⟩
  obtain ⟨cells, parts, hCells, hParts⟩ := Update.exists_assignmentSql hTyped
  have hFilter : Condition.effective (r.update.narrow c).filter = some c :=
    Condition.effective_of_not_isEmpty (not_isEmpty_of_keyCondition hKey)
  rw [Query.countRequest, Result.bind_eq_ok_iff] at hCount
  obtain ⟨clause, hClause, -⟩ := hCount
  rw [updateOf?] at h
  split at h
  next => cases h
  next hSome =>
    obtain rfl := Option.some.inj h
    simp only [Update.compile, Result.guard_eq_ok_iff, Result.bind_eq_ok_iff]
    refine ⟨_, by simpa using hSome, ?_, cells, hCells, parts, hParts, clause, ?_, rfl⟩
    · rw [hFilter]
      rfl
    · rw [hFilter]
      exact hFilter ▸ Condition.clause_of_operation hClause

end Repository

end SqlMapper
