import SqlMapper.Proofs.Condition.Compiled
import SqlMapper.Proofs.Statement.Resolution
import SqlMapper.Proofs.Store.Command
import SqlMapper.Statement.Insert
import SqlMapper.Statement.Update

/-! Builders and statements on rows. Where columns are found under their own names and have types,
what a builder compiles to is the text of the statement with the same cells. -/
namespace SqlMapper

theorem Sql.joined_cons (separator : String) (part : Sql) (parts : List Sql) :
    joined separator (part :: parts) = part ++ parts.flatMap fun p => .text separator :: p := by
  induction parts generalizing part with
  | nil => rw [joined, List.flatMap_nil, List.append_nil]
  | cons next parts ih => rw [joined, ih, List.flatMap_cons, List.cons_append]; simp

namespace Table

variable {t : Table} {operation : Operation}

/-- Columns that are found by their own names resolve to themselves. -/
theorem columnsOf_map_name {columns : List Column}
    (hFind : ∀ c ∈ columns, t.find? c.name = some c) :
    t.columnsOf operation (columns.map Column.name) = .ok columns := by
  induction columns with
  | nil => rfl
  | cons c columns ih =>
      rw [List.forall_mem_cons] at hFind
      rw [List.map_cons, columnsOf, column_of_find? hFind.1, ih hFind.2]
      rfl

end Table

variable {d : Dialect} {t : Table} {operation : Operation}

namespace Insert

/-- Types that were found are those of the columns. -/
theorem columnTypes_eq_ok {columns : List Column} {types : List String}
    (h : columnTypes d t.name columns = .ok types) :
    types = columns.map (d.typeOf t) ∧ ∀ c ∈ columns, d.columnType t.name c = .ok (d.typeOf t c) := by
  induction columns generalizing types with
  | nil =>
      obtain rfl := Except.ok.inj h
      simp
  | cons c columns ih =>
      simp only [columnTypes, Result.bind_eq_ok_iff] at h
      obtain ⟨type, hType, rest, hRest, hTypes⟩ := h
      obtain ⟨rfl, hTyped⟩ := ih hRest
      obtain rfl := Except.ok.inj hTypes
      have hOwn : d.typeOf t c = type := by rw [Dialect.typeOf, hType]; rfl
      refine ⟨by rw [List.map_cons, hOwn], List.forall_mem_cons.mpr ⟨?_, hTyped⟩⟩
      rw [hType, hOwn]

/-- The style of the upsert does not change the types. -/
theorem columnTypes_of_upsert (d : Dialect) (style : UpsertStyle) (table : String)
    (columns : List Column) :
    columnTypes { d with upsert := style } table columns = columnTypes d table columns := by
  induction columns with
  | nil => rfl
  | cons c columns ih => rw [columnTypes, columnTypes, ih]; rfl

/-- An insertion of one row is the command to insert its cells. -/
theorem rowsSql_eq (cells : Cells.Bound) :
    rowsSql t cells.columns (cells.columns.map (d.typeOf t)) [cells.values] =
      Command.insertSql d t cells := by
  have hBindings : cells.values.zipWith (fun v type => [Piece.bind v type])
      (cells.columns.map (d.typeOf t)) = cells.bindings d t := by
    rw [Cells.Bound.values, Cells.Bound.columns, List.map_map, List.zipWith_map, List.zipWith_self]
    rfl
  rw [rowsSql, List.map_singleton, Sql.joined, rowSql, hBindings]
  rfl

end Insert

namespace Update

theorem resolved_map {cells : Cells.Bound} (hFind : ∀ cell ∈ cells, t.find? cell.1.name = some cell.1) :
    resolved t (cells.map fun cell => (cell.1.name, cell.2)) = .ok cells := by
  induction cells with
  | nil => rfl
  | cons cell cells ih =>
      rw [List.forall_mem_cons] at hFind
      rw [List.map_cons, resolved, Table.column_of_find? hFind.1, ih hFind.2]
      rfl

/-- Assignments are written as the equalities of their cells. -/
theorem assignmentSql_eq {cells : Cells.Bound}
    (hTyped : ∀ cell ∈ cells, d.columnType t.name cell.1 = .ok (d.typeOf t cell.1)) :
    assignmentSql d t.name cells = .ok (cells.equalities d t) := by
  induction cells with
  | nil => rfl
  | cons cell cells ih =>
      rw [List.forall_mem_cons] at hTyped
      rw [assignmentSql, hTyped.1, ih hTyped.2]
      rfl

end Update

namespace Condition

def equals (cell : Column × Value) : Condition := compare cell.1.name .equal [cell.2]

/-- The condition that all columns equal their values, built one by one. -/
def holding (filter : Option Condition) (held : Cells.Bound) : Option Condition :=
  held.foldl (fun filter cell => added filter (equals cell)) filter

theorem holding_group {children : List (Link × Condition)} (hSome : children ≠ [])
    (held : Cells.Bound) : holding (some (group children)) held =
      some (group (children ++ held.map fun cell => (.and, equals cell))) := by
  induction held generalizing children with
  | nil => rw [List.map_nil, List.append_nil]; rfl
  | cons cell held ih =>
      obtain ⟨child, rest, rfl⟩ := List.exists_cons_of_ne_nil hSome
      have hAdded : added (some (group (child :: rest))) (equals cell) =
        some (group ((child :: rest) ++ [(.and, equals cell)])) := rfl
      rw [holding, List.foldl_cons, hAdded]
      refine (ih (by simp)).trans ?_
      rw [List.map_cons, List.append_assoc]
      rfl

/-- An equality of a cell is written as the store reads it. -/
theorem sql_equals {cell : Column × Value} (hFind : t.find? cell.1.name = some cell.1)
    (hTyped : d.columnType t.name cell.1 = .ok (d.typeOf t cell.1)) (hSome : cell.2.isNull = false) :
    (equals cell).sql d t operation = .ok (Cells.Bound.equality d t cell) := by
  rw [equals, compare, Condition.sql, Predicate.sql_eq_ok_iff]
  refine ⟨cell.1, .equal, _, hFind, ?_, hTyped, rfl⟩
  simp [Operator.forValues, Operator.arity, hSome]

/-- Equalities that are linked to what is written of a group stand behind it in order. -/
theorem sqlAfter_equals {held : Cells.Bound} {previous : Option Link}
    (hPrevious : previous.any (· != .and) = false)
    (hSql : ∀ cell ∈ held, (equals cell).sql d t operation = .ok (Cells.Bound.equality d t cell))
    (written : Sql) :
    sqlAfter d t operation written previous (held.map fun cell => (.and, equals cell)) =
      .ok (written ++ (held.equalities d t).flatMap fun part => .text " AND " :: part) := by
  induction held generalizing written previous with
  | nil =>
      rw [List.map_nil, sqlAfter, Cells.Bound.equalities, List.map_nil, List.flatMap_nil,
        List.append_nil]
  | cons cell held ih =>
      rw [List.forall_mem_cons] at hSql
      have hBare : (equals cell).isCompound = false := rfl
      rw [List.map_cons, sqlAfter, hSql.1, hPrevious, Result.bind_eq_ok_iff]
      refine ⟨_, rfl, ?_⟩
      rw [hBare, if_neg Bool.false_ne_true, if_neg Bool.false_ne_true, ih rfl hSql.2,
        List.append_assoc]
      rfl

/-- Rows that hold some values are selected by the equalities in order. -/
theorem exists_holding {held : Cells.Bound} (hSome : held ≠ [])
    (hFind : ∀ cell ∈ held, t.find? cell.1.name = some cell.1)
    (hTyped : ∀ cell ∈ held, d.columnType t.name cell.1 = .ok (d.typeOf t cell.1))
    (hPresent : ∀ cell ∈ held, cell.2.isNull = false) :
    ∃ c, holding none held = some c ∧ effective (some c) = some c ∧
      ∀ operation, clause d t operation (some c) = .ok (Command.whereSql d t held) := by
  have hSql (operation : Operation) (cell) (hCell : cell ∈ held) :
      (equals cell).sql d t operation = .ok (Cells.Bound.equality d t cell) :=
    sql_equals (hFind cell hCell) (hTyped cell hCell) (hPresent cell hCell)
  match held, hSome, hSql with
  | [cell], _, hSql =>
      refine ⟨equals cell, rfl, rfl, fun operation => ?_⟩
      rw [clause, hSql operation cell (List.mem_singleton_self cell)]
      rfl
  | first :: second :: rest, _, hSql =>
      refine ⟨group ((first :: second :: rest).map fun cell => (.and, equals cell)), ?_, rfl, ?_⟩
      · have hPair : [(Link.and, equals first), (Link.and, equals second)] ≠ [] := by simp
        exact holding_group hPair rest
      · intro operation
        obtain ⟨hFirst, hOthers⟩ := List.forall_mem_cons.mp (hSql operation)
        have hBare : (equals first).isCompound = false := rfl
        rw [clause, List.map_cons, Condition.sql, hFirst, Result.bind_eq_ok_iff]
        refine ⟨_, ?_, rfl⟩
        rw [Result.bind_eq_ok_iff]
        refine ⟨_, rfl, ?_⟩
        rw [hBare, if_neg Bool.false_ne_true, sqlAfter_equals rfl hOthers,
          Cells.Bound.equalities, ← Sql.joined_cons]
        rfl

end Condition

end SqlMapper
