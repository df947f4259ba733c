import SqlMapper.Proofs.Statement.Placeholder
import SqlMapper.Record.Repository

/-! Insertions of records. Whether they compile depends on the repository alone, and then each
statement binds the values of the mapped columns, record after record. -/
namespace SqlMapper

namespace Insert

/-- No row is refused exactly when every row is as wide as the column list. -/
theorem misfit?_eq_none_iff {width index : Nat} {rows : List (List Value)} :
    misfit? width index rows = none ↔ ∀ row ∈ rows, row.length = width := by
  refine ⟨length_of_misfit?, fun h => ?_⟩
  induction rows generalizing index with
  | nil => rfl
  | cons row rows ih =>
      rw [List.forall_mem_cons] at h
      rw [misfit?, if_pos h.1]
      exact ih h.2

end Insert

namespace Repository

variable {e : Entity} {r : Repository e} {records : List (Record e)} {columns : List Column}
  {types : List String}

/-- The columns that insertions fill, with their database types: one column for each entry of the
mapping. -/
structure Fills (r : Repository e) (columns : List Column) (types : List String) : Prop where
  resolved : r.table.columnsOrAll .insert (r.mapping.entries.map Prod.fst) = .ok columns
  typed : Insert.columnTypes r.dialect r.table.name columns = .ok types
  length_eq : columns.length = r.mapping.entries.length

/-- The statement that inserts some records. -/
def statement (r : Repository e) (columns : List Column) (types : List String)
    (records : List (Record e)) : Request :=
  r.dialect.request (Insert.rowsSql r.table columns types (records.map r.rowOf))

/-- The records of each statement of an insertion. -/
def shares (r : Repository e) (records : List (Record e)) : List (List (Record e)) :=
  if r.dialect.multiRow then [records] else records.map ([·])

def upsertion (r : Repository e) (record : Record e) : Insert :=
  { r.insertion [record] with upsert := true }

/-- The row of a record has one value for every mapped column. -/
theorem length_rowOf (record : Record e) : (r.rowOf record).length = r.mapping.entries.length :=
  List.length_map _

/-- The rows of an insertion are shared out as its records are. -/
theorem batches_rows (records : List (Record e)) :
    Insert.batches r.dialect (records.map r.rowOf) = (r.shares records).map (List.map r.rowOf) := by
  rw [Insert.batches, shares]
  split
  · rfl
  · simp

theorem shares_singleton (record : Record e) : r.shares [record] = [[record]] := by
  rw [shares]
  split <;> rfl

/-- An upsert of one record is one statement, if the dialect has upserts and the values fit. -/
theorem compileUpsert_singleton (record : Record e) (hKey : r.table.key ≠ []) :
    { r.insertion [record] with upsert := true }.compileUpsert =
      (r.table.columnsOrAll .insert (r.mapping.entries.map Prod.fst)).bind fun columns =>
        if (r.rowOf record).length = columns.length then
          (Insert.columnTypes r.dialect r.table.name columns).map fun types =>
            (Insert.upsertSql? r.dialect.upsert columns r.table.key).map fun clause =>
              [r.dialect.request (Insert.rowsSql r.table columns types [r.rowOf record] ++ clause)]
        else .error (.compile (r.site .insert)
          (.rowLength 0 (r.rowOf record).length columns.length)) := by
  have hSome : r.table.key.isEmpty = false := by simpa using hKey
  have hBatches : Insert.batches r.dialect [r.rowOf record] = [[r.rowOf record]] := by
    rw [Insert.batches]
    split <;> rfl
  simp only [Insert.compileUpsert, insertion, hSome, List.map_singleton, hBatches]
  refine congrArg (Except.bind _) (funext fun columns => ?_)
  by_cases hFits : (r.rowOf record).length = columns.length
  · simp only [Insert.misfit?, if_pos hFits]
    cases Insert.columnTypes r.dialect r.table.name columns <;> rfl
  · simp only [Insert.misfit?, if_neg hFits]
    rfl

/-- An insertion that compiles fills columns of known types. -/
theorem fills_of_compile {requests : List Request} (hSome : records ≠ [])
    (h : (r.insertion records).compile = .ok requests) : ∃ columns types, r.Fills columns types := by
  obtain ⟨columns, types, clause, hColumns, hMisfit, hTypes, -, -⟩ :=
    Insert.compileUpsert_eq_ok (Insert.compileUpsert_of_compile h)
  obtain ⟨record, hRecord⟩ := List.exists_mem_of_ne_nil records hSome
  have hLength := Insert.length_of_misfit? hMisfit _ (List.mem_map_of_mem hRecord)
  exact ⟨columns, types, hColumns, hTypes, hLength.symm.trans (length_rowOf record)⟩

/-- An insertion compiles to one statement for each share of its records. -/
theorem compile_insertion (hFills : r.Fills columns types) (hSome : records ≠ []) :
    (r.insertion records).compile = .ok ((r.shares records).map (r.statement columns types)) := by
  have hMisfit : Insert.misfit? columns.length 0 (records.map r.rowOf) = none := by
    rw [Insert.misfit?_eq_none_iff, List.forall_mem_map]
    intro record _
    rw [length_rowOf, hFills.length_eq]
  have hUpsert : (r.insertion records).compileUpsert =
      .ok (some ((r.shares records).map (r.statement columns types))) := by
    simp only [Insert.compileUpsert, Result.bind_eq_ok_iff, Result.guard_eq_ok_iff]
    refine ⟨columns, hFills.resolved, by simpa [insertion] using hSome, ?_⟩
    rw [insertion, hMisfit]
    simp only [Result.bind_eq_ok_iff, Result.guard_eq_ok_iff]
    refine ⟨rfl, types, hFills.typed, ?_⟩
    have hClause (rows : List (List Value)) : r.dialect.request
        (Insert.rowsSql r.table columns types rows ++ []) =
          r.dialect.request (Insert.rowsSql r.table columns types rows) := by
      rw [List.append_nil]
    rw [batches_rows, if_neg Bool.false_ne_true, Option.map_some]
    simp only [hClause, List.map_map]
    rfl
  rw [Insert.compile, hUpsert]
  rfl

/-- The values are bound in order of the records and, for each record, in order of the columns. -/
theorem values_statement (hFills : r.Fills columns types) (records : List (Record e)) :
    (r.statement columns types records).values = records.flatMap r.rowOf := by
  have hLengths : ∀ row ∈ records.map r.rowOf, row.length = columns.length := by
    rw [List.forall_mem_map]
    intro record _
    rw [length_rowOf, hFills.length_eq]
  exact Insert.map_value_params_rowsSql hFills.typed hLengths

end Repository

end SqlMapper
