import Mathlib.Data.List.Basic
import SqlMapper.Proofs.Condition.Truth
import SqlMapper.Sql.TypeName
import SqlMapper.Statement.Reference

/-! Statements on the rows of one table, with the text that says them and what they do to the rows.
How a store compares, keeps and fills up cells is left open. An upsert does what a count and then an
insertion or an update do, where keys are unique. -/
namespace SqlMapper

/-- The type that the dialect writes for a column, where it has one. -/
def Dialect.typeOf (d : Dialect) (t : Table) (c : Column) : String :=
  (d.columnType t.name c).toOption.getD ""

namespace Dialect

/-- The style of the upsert does not change how text is rendered. -/
theorem letters_of_upsert (d : Dialect) (style : UpsertStyle) (position : Nat) (sql : Sql) :
    { d with upsert := style }.letters position sql = d.letters position sql := by
  induction sql generalizing position with
  | nil => rfl
  | cons piece sql ih => cases piece <;> exact congrArg (List.cons _) (ih _)

/-- How a dialect upserts plays no part in the letters of a statement. -/
theorem request_of_upsert (d : Dialect) (style : UpsertStyle) (sql : Sql) :
    { d with upsert := style }.request sql = d.request sql := by
  rw [request, request, render, render, letters_of_upsert]

end Dialect

abbrev Cells.Bound := List (Column × Value)

namespace Cells.Bound

variable (cells : Cells.Bound)

def columns : List Column := cells.map Prod.fst

def values : List Value := cells.map Prod.snd

def on (columns : List Column) : Cells.Bound :=
  cells.filter fun cell => columns.any (·.name == cell.1.name)

/-- The bound values, each with the type of its column. -/
def bindings (d : Dialect) (t : Table) : List Sql :=
  cells.map fun cell => [.bind cell.2 (d.typeOf t cell.1)]

/-- A column and its bound value with a sign between them that compares or assigns. -/
def equality (d : Dialect) (t : Table) (cell : Column × Value) : Sql :=
  [.name cell.1.name, .text " = ", .bind cell.2 (d.typeOf t cell.1)]

/-- The columns, each equal to its bound value. -/
def equalities (d : Dialect) (t : Table) : List Sql := cells.map (equality d t)

end Cells.Bound

/-- A statement on the rows of a table. -/
inductive Command where
  /-- Adds a row. -/
  | insert (cells : Cells.Bound)
  /-- Adds a row, or sets some columns of the row with its key to the values of the new one. -/
  | upsert (cells : Cells.Bound) (updated : List Column)
  /-- Counts the rows that hold some values. -/
  | count (held : Cells.Bound)
  /-- Sets columns of the rows that hold some values. -/
  | update (assigned held : Cells.Bound)

namespace Command

section Text

variable (d : Dialect) (t : Table)

/-- What turns an insertion into an update of the row that has its key. -/
def upsertSql (updated : List Column) : Sql :=
  match d.upsert with
  | .onConflict =>
    .text "\nON CONFLICT (" :: Column.nameList t.key ++ .text ")" ::
      if updated.isEmpty then [.text " DO NOTHING"]
      else .text " DO UPDATE SET\n" :: Sql.joined ",\n" (updated.map fun c =>
        [.name c.name, .text " = EXCLUDED.", .name c.name])
  | .onDuplicateKey =>
    .text "\nON DUPLICATE KEY UPDATE\n" :: Sql.joined ",\n" (updated.map fun c =>
      [.name c.name, .text " = VALUES(", .name c.name, .text ")"])
  | .none => []

def insertSql (cells : Cells.Bound) : Sql :=
  .text "INSERT INTO " :: t.reference ++ .text " (" :: Column.nameList cells.columns ++
    .text ") VALUES\n" :: Sql.enclosed (Sql.joined ", " (cells.bindings d t))

/-- The condition that columns equal their bound values. -/
def whereSql (held : Cells.Bound) : Sql :=
  .text "\nWHERE " :: Sql.joined " AND " (held.equalities d t)

def sql : Command → Sql
  | insert cells => insertSql d t cells
  | upsert cells updated => insertSql d t cells ++ upsertSql d t updated
  | count held => .text "SELECT COUNT(*) AS total\nFROM " :: t.reference ++ whereSql d t held
  | update assigned held =>
    .text "UPDATE " :: t.reference ++ .text "\nSET " :: Sql.joined ", " (assigned.equalities d t) ++
      whereSql d t held

def request (c : Command) : Request := d.request (c.sql d t)

end Text

end Command

/-- How rows are kept. -/
structure Store where
  comparisons : Comparisons
  /-- What a cell of a column holds after a value was bound for it. -/
  keep : Column → Value → Value
  /-- The row before any cell is bound. -/
  blank : Cells

namespace Store

variable (s : Store)

def holds (held : Cells.Bound) (row : Cells) : Bool :=
  held.all fun cell => s.comparisons .equal (row cell.1.name) cell.2 == .true

def assign (cells : Cells.Bound) (row : Cells) : Cells := fun name =>
  match cells.find? (·.1.name == name) with
  | some cell => s.keep cell.1 cell.2
  | none => row name

/-- No two rows hold the same key. -/
def Unique (t : Table) (rows : List Cells) : Prop :=
  rows.Pairwise fun a b => ∀ held : Cells.Bound, held.columns = t.key →
    ¬ (s.holds held a = true ∧ s.holds held b = true)

/-- The rows after a statement; none if it would add a second row with a key. -/
def run (t : Table) (rows : List Cells) : Command → Option (List Cells)
  | .insert cells =>
    if rows.any (s.holds (cells.on t.key)) then none else some (rows ++ [s.assign cells s.blank])
  | .upsert cells updated =>
    if rows.any (s.holds (cells.on t.key)) then
      some (rows.replaceF fun row =>
        if s.holds (cells.on t.key) row then some (s.assign (cells.on updated) row) else none)
    else some (rows ++ [s.assign cells s.blank])
  | .count _ => some rows
  | .update assigned held =>
    some (rows.map fun row => if s.holds held row then s.assign assigned row else row)

/-- The rows that hold some values. -/
def total (held : Cells.Bound) (rows : List Cells) : Nat := rows.countP (s.holds held)

variable {s} {t : Table} {rows : List Cells}

/-- Where at most one element is asked for, replacing the first replaces all. -/
theorem replaceF_eq_map {p : Cells → Bool} (f : Cells → Cells)
    (hUnique : rows.Pairwise fun a b => ¬ (p a = true ∧ p b = true)) :
    (rows.replaceF fun row => if p row then some (f row) else none) =
      rows.map fun row => if p row then f row else row := by
  induction rows with
  | nil => rfl
  | cons row rows ih =>
      obtain ⟨hRow, hRows⟩ := List.pairwise_cons.mp hUnique
      rw [List.replaceF, List.map_cons]
      cases hp : p row with
      | false => simpa using ih hRows
      | true =>
          have hOthers : (rows.map fun other => if p other then f other else other) = rows := by
            refine (List.map_congr_left fun other hOther => ?_).trans (List.map_id rows)
            rw [if_neg fun hp' => hRow other hOther ⟨hp, hp'⟩]
            rfl
          simp [hOthers]

/-- At most one row holds a key. -/
theorem total_le_one (hUnique : s.Unique t rows) {held : Cells.Bound} (hKey : held.columns = t.key) :
    s.total held rows ≤ 1 := by
  induction rows with
  | nil => simp [total]
  | cons row rows ih =>
      obtain ⟨hRow, hRows⟩ := List.pairwise_cons.mp hUnique
      have hOthers := ih hRows
      rw [total] at hOthers ⊢
      rw [List.countP_cons]
      split
      next hHolds =>
        have hNone : rows.countP (s.holds held) = 0 := by
          rw [List.countP_eq_zero]
          exact fun other hOther hHolds' => hRow other hOther held hKey ⟨hHolds, hHolds'⟩
        omega
      next => omega

/-- An upsert is the insertion of a row whose key is not there, and else the update of the one that
has it. -/
theorem run_upsert {cells : Cells.Bound} (updated : List Column) (hUnique : s.Unique t rows)
    (hKey : (cells.on t.key).columns = t.key) :
    s.run t rows (.upsert cells updated) =
      if s.total (cells.on t.key) rows = 0 then s.run t rows (.insert cells)
      else s.run t rows (.update (cells.on updated) (cells.on t.key)) := by
  have hTotal : s.total (cells.on t.key) rows = 0 ↔
      ¬ rows.any (s.holds (cells.on t.key)) = true := by
    rw [total, List.countP_eq_zero]
    simp
  simp only [run, hTotal]
  cases rows.any (s.holds (cells.on t.key)) with
  | false => rfl
  | true =>
      have hOne := hUnique.imp fun hDifferent => hDifferent (cells.on t.key) hKey
      simp only [not_true_eq_false, if_true, if_false, replaceF_eq_map _ hOne]

/-- An upsert is refused by no store: what is in its way is updated. -/
theorem exists_run_upsert (s : Store) (t : Table) (rows : List Cells) (cells : Cells.Bound)
    (updated : List Column) : ∃ rows', s.run t rows (.upsert cells updated) = some rows' := by
  rw [run]
  split <;> exact ⟨_, rfl⟩

/-- An update changes nothing exactly where it sets the rows that it is about to what they have
already. -/
theorem run_update_eq_iff {assigned held : Cells.Bound} :
    s.run t rows (.update assigned held) = some rows ↔
      ∀ row ∈ rows, s.holds held row = true → s.assign assigned row = row := by
  have hSelf : (rows.map fun row => if s.holds held row then s.assign assigned row else row) = rows ↔
      ∀ row ∈ rows, (if s.holds held row then s.assign assigned row else row) = row := by
    conv_lhs => rhs; rw [← List.map_id rows]
    exact List.map_inj_left
  rw [run, Option.some.injEq, hSelf]
  refine forall₂_congr fun row _ => ?_
  cases s.holds held row <;> simp

end Store

end SqlMapper
