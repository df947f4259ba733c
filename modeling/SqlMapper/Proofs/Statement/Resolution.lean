import SqlMapper.Proofs.Schema.Lookup
import SqlMapper.Statement.Update

/-! Names in statements. Where they are resolved they lead to columns of the table. -/
namespace SqlMapper

variable {t : Table} {operation : Operation}

namespace Table

theorem column_of_find? {name : String} {c : Column} (h : t.find? name = some c) :
    t.column name operation = .ok c := by
  rw [column, h]

theorem find?_of_column {name : String} {c : Column} (h : t.column name operation = .ok c) :
    t.find? name = some c := by
  unfold column at h
  cases hFind : t.find? name with
  | none => simp [hFind] at h
  | some c' =>
      rw [hFind] at h
      rw [Except.ok.inj h]

theorem mem_of_column {name : String} {c : Column} (h : t.column name operation = .ok c) :
    c ∈ t.columns :=
  mem_of_find? (find?_of_column h)

/-- Columns that resolve are those the names find, in order. -/
theorem find?_of_columnsOf {names : List String} {columns : List Column}
    (h : t.columnsOf operation names = .ok columns) : names.map t.find? = columns.map some := by
  induction names generalizing columns with
  | nil =>
      obtain rfl := Except.ok.inj h
      rfl
  | cons name names ih =>
      simp only [columnsOf, Result.bind_eq_ok_iff] at h
      obtain ⟨c, hColumn, cs, hRest, hColumns⟩ := h
      obtain rfl := Except.ok.inj hColumns
      rw [List.map_cons, List.map_cons, find?_of_column hColumn, ih hRest]

/-- Names resolve to columns of the table. -/
theorem mem_of_columnsOf {names : List String} {columns : List Column}
    (h : t.columnsOf operation names = .ok columns) : ∀ c ∈ columns, c ∈ t.columns := by
  induction names generalizing columns with
  | nil =>
      obtain rfl := Except.ok.inj h
      simp
  | cons name names ih =>
      simp only [columnsOf, Result.bind_eq_ok_iff] at h
      obtain ⟨c, hColumn, cs, hRest, hColumns⟩ := h
      obtain rfl := Except.ok.inj hColumns
      rw [List.forall_mem_cons]
      exact ⟨mem_of_column hColumn, ih hRest⟩

theorem mem_of_columnsOrAll {names : List String} {columns : List Column}
    (h : t.columnsOrAll operation names = .ok columns) : ∀ c ∈ columns, c ∈ t.columns := by
  unfold columnsOrAll at h
  split at h
  · obtain rfl := Except.ok.inj h
    exact fun _ hc => hc
  · exact mem_of_columnsOf h

end Table

/-- Assignments resolve to columns of the table. -/
theorem Update.mem_of_resolved {assignments : List (String × Value)}
    {columns : List (Column × Value)} (h : resolved t assignments = .ok columns) :
    ∀ cell ∈ columns, cell.1 ∈ t.columns := by
  induction assignments generalizing columns with
  | nil =>
      obtain rfl := Except.ok.inj h
      simp
  | cons assignment rest ih =>
      simp only [resolved, Result.bind_eq_ok_iff] at h
      obtain ⟨c, hColumn, cs, hRest, hColumns⟩ := h
      obtain rfl := Except.ok.inj hColumns
      rw [List.forall_mem_cons]
      exact ⟨Table.mem_of_column hColumn, ih hRest⟩

end SqlMapper
