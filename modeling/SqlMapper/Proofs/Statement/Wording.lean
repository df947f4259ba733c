import SqlMapper.Proofs.Condition.Compiled
import SqlMapper.Proofs.Lexis.Vocabulary
import SqlMapper.Proofs.Statement.Basic

/-! Statements on rows are put together from the fixed texts of one vocabulary, whatever tables,
conditions and values they are about. -/
namespace SqlMapper

open Sql (Worded)

theorem Sql.Worded.enclosedIf {a : Sql} (ha : a.Worded) (needed : Bool) :
    Worded (Sql.enclosedIf needed a) := by
  cases needed with
  | false => exact ha
  | true => exact ha.enclosed

theorem Table.worded_reference (t : Table) : t.reference.Worded := by
  rw [reference]
  split
  · exact .name_cons t.name .nil
  · exact .name_cons t.schema (.text_cons (by decide) (.name_cons t.name .nil))

theorem Column.worded_nameList (columns : List Column) : (nameList columns).Worded := by
  refine .joined (by decide) (List.forall_mem_map.mpr fun c _ => ?_)
  exact .name_cons c.name .nil

/-! ### Conditions -/

variable {d : Dialect} {t : Table} {operation : Operation}

theorem Predicate.worded_comparison (x : String) (o : Operator) (sqlType : String)
    (values : List Value) : Worded (.name x :: comparison o sqlType values) := by
  have hOpening : o.opening ∈ Sql.vocabulary := by cases o <;> decide
  have hSeparator : o.separator ∈ Sql.vocabulary := by cases o <;> decide
  have hClosing : Worded o.closing := by
    cases o with
    | isIn | notIn => exact .text_cons (by decide) .nil
    | _ => exact .nil
  have hValues : Worded (Sql.joined o.separator
      ((o.operands values).map fun v => [Piece.bind v sqlType])) :=
    .joined hSeparator (List.forall_mem_map.mpr fun v _ => .bind v sqlType)
  rw [comparison_eq, List.cons_append]
  exact .name_cons x (.text_cons hOpening (hValues.append hClosing))

namespace Condition

/-- A condition is written in the vocabulary. -/
theorem Written.worded {c : Condition} {sql : Sql} (h : Written d t operation c sql) :
    sql.Worded := by
  induction h with
  | leaf h =>
      obtain ⟨column, o, sqlType, -, -, -, rfl⟩ := Predicate.sql_eq_ok_iff.mp h
      exact Predicate.worded_comparison column.name o sqlType _
  | first h ih => exact ih.enclosedIf _
  | @next seen link c left right hSeen hLeft hRight ihLeft ihRight =>
      have hWord : link.word ∈ Sql.vocabulary := by cases link <;> decide
      exact (ihLeft.enclosedIf _).linked hWord (ihRight.enclosedIf _)

/-- A clause is written in the vocabulary. -/
theorem worded_clause {filter : Option Condition} {sql : Sql}
    (h : clause d t operation filter = .ok sql) : sql.Worded := by
  cases filter with
  | none =>
      obtain rfl := Except.ok.inj h
      exact .nil
  | some c =>
      rw [clause, Result.bind_eq_ok_iff] at h
      obtain ⟨condition, hCondition, hSql⟩ := h
      obtain rfl := Except.ok.inj hSql
      exact (written_of_sql c hCondition).worded.text_cons (by decide)

end Condition

theorem Table.worded_filtered {s : String} (hs : s ∈ Sql.vocabulary) {filter : Option Condition}
    {clause : Sql} (h : Condition.clause d t operation filter = .ok clause) :
    Worded (.text s :: t.reference ++ clause) :=
  (t.worded_reference.text_cons hs).append (Condition.worded_clause h)

/-! ### Builders -/

namespace Insert

theorem worded_rowSql (types : List String) (row : List Value) : (rowSql types row).Worded := by
  refine .enclosed (.joined (by decide) fun part hPart => ?_)
  rw [← List.map_uncurry_zip_eq_zipWith] at hPart
  obtain ⟨⟨v, type⟩, -, rfl⟩ := List.mem_map.mp hPart
  exact .bind v type

/-- The rows of an insertion are written in the vocabulary. -/
theorem worded_rowsSql (t : Table) (columns : List Column) (types : List String)
    (rows : List (List Value)) : (rowsSql t columns types rows).Worded := by
  have hRows := Worded.joined (s := ",\n") (by decide)
    (List.forall_mem_map.mpr fun row (_ : row ∈ rows) => worded_rowSql types row)
  have hTable := t.worded_reference.text_cons (s := "INSERT INTO ") (by decide)
  exact (hTable.linked (by decide) (Column.worded_nameList columns)).linked (by decide) hRows

end Insert

namespace Update

/-- Assignments are written in the vocabulary. -/
theorem worded_assignmentSql {columns : List (Column × Value)} {parts : List Sql}
    (h : assignmentSql d t.name columns = .ok parts) : ∀ part ∈ parts, part.Worded := by
  induction columns generalizing parts with
  | nil =>
      obtain rfl := Except.ok.inj h
      simp
  | cons x columns ih =>
      obtain ⟨c, v⟩ := x
      simp only [assignmentSql, Result.bind_eq_ok_iff] at h
      obtain ⟨type, -, rest, hRest, hParts⟩ := h
      obtain rfl := Except.ok.inj hParts
      exact List.forall_mem_cons.mpr
        ⟨.name_cons c.name (.text_cons (by decide) (.bind v type)), ih hRest⟩

/-- An update is written in the vocabulary. -/
theorem worded_sql {columns : List (Column × Value)} {parts : List Sql}
    (hParts : assignmentSql d t.name columns = .ok parts) {filter : Option Condition} {clause : Sql}
    (hClause : Condition.clause d t operation filter = .ok clause) :
    Worded
      (.text "UPDATE " :: t.reference ++ .text "\nSET " :: Sql.joined ", " parts ++ clause) := by
  have hTable := t.worded_reference.text_cons (s := "UPDATE ") (by decide)
  have hSet := hTable.linked (s := "\nSET ") (by decide)
    (.joined (s := ", ") (by decide) (worded_assignmentSql hParts))
  exact hSet.append (Condition.worded_clause hClause)

end Update

theorem Query.worded_orderSql (keys : List (Column × Direction)) : (orderSql keys).Worded := by
  rw [orderSql]
  split
  · exact .nil
  · refine .text_cons (by decide) (.joined (by decide) (List.forall_mem_map.mpr fun key _ => ?_))
    have hWord : key.2.word ∈ Sql.vocabulary := by cases key.2 <;> decide
    exact .name_cons key.1.name (.text_cons hWord .nil)

end SqlMapper
