import Mathlib.Data.List.Forall2
import SqlMapper.Proofs.Condition.Leaves
import SqlMapper.Proofs.Lexis.Operand
import SqlMapper.Proofs.Statement.Basic
import SqlMapper.Proofs.Statement.Resolution

/-! Placeholders, parameters and the values of a statement agree in number and order. A statement is
put together from parts with separators between them, and every part carries the values it mentions,
each with the type of its column. -/
namespace SqlMapper

open Condition (asked)

/-- A value of a statement and the column that it goes into or is compared with, if there is one. -/
structure Mention where
  column : Option Column
  value : Value

/-- The parameter is the mentioned value, with the type of its column. -/
def Mention.IsBound (d : Dialect) (t : Table) (m : Mention) (p : Param) : Prop :=
  p.value = m.value ∧ ∃ c, m.column = some c ∧ d.columnType t.name c = .ok p.sqlType

/-- A comparison mentions its values, none where it tests for NULL. -/
def Predicate.mentions (t : Table) (p : Predicate) : List Mention :=
  (p.meant.operands p.values).map fun v => ⟨t.find? p.column, v⟩

/-- The mentions of a row, whose values go into these columns in order. -/
def rowMentions : List (Option Column) → List Value → List Mention
  | _, [] => []
  | [], v :: row => ⟨none, v⟩ :: rowMentions [] row
  | c :: columns, v :: row => ⟨c, v⟩ :: rowMentions columns row

namespace Insert

def targets (i : Insert) : List (Option Column) :=
  if i.columns.isEmpty then i.table.columns.map some else i.columns.map i.table.find?

end Insert

namespace Statement

/-- The values of each request: rows one after another, assignments before comparisons. -/
def mentions : Statement → List (List Mention)
  | insert i =>
    (Insert.batches i.dialect i.rows).map fun rows => rows.flatMap (rowMentions i.targets)
  | update u =>
    [u.assignments.map (fun x => ⟨u.table.find? x.1, x.2⟩) ++
      (asked u.filter).flatMap (·.mentions u.table)]
  | delete x => [(asked x.filter).flatMap (·.mentions x.table)]
  | select q | count q => [(asked q.filter).flatMap (·.mentions q.table)]

end Statement

/-- The text has one placeholder for each parameter, in order, and the parameters are the mentioned
values. -/
structure Request.Binds (d : Dialect) (t : Table) (mentions : List Mention) (r : Request) :
    Prop where
  placeholders : d.placeholders r.sql = (List.range' 1 r.params.length).map d.slot
  params : List.Forall₂ (Mention.IsBound d t) mentions r.params

/-! ### Parts -/

namespace Sql

variable {d : Dialect} {t : Table} {s : String}

theorem params_enclosed (sql : Sql) : params (enclosed sql) = params sql := by
  simp [enclosed]

theorem params_enclosedIf (needed : Bool) (sql : Sql) :
    params (enclosedIf needed sql) = params sql := by
  cases needed with
  | false => rfl
  | true => exact params_enclosed sql

theorem params_joined (s : String) (parts : List Sql) :
    params (joined s parts) = parts.flatMap params := by
  induction parts with
  | nil => rfl
  | cons part parts ih =>
      cases parts with
      | nil => simp [joined]
      | cons next parts => simpa [joined] using ih

/-- A part that can be put between separators, with the values that it mentions. -/
structure Carries (d : Dialect) (t : Table) (mentions : List Mention) (sql : Sql) : Prop where
  spaced : sql.Spaced
  params : List.Forall₂ (Mention.IsBound d t) mentions sql.params

namespace Carries

variable {ms ns : List Mention} {a b : Sql}

theorem fixed (h : a.Spaced) (hNone : a.params = []) : Carries d t [] a :=
  ⟨h, hNone ▸ .nil⟩

theorem nothing : Carries d t [] [] := fixed .nil rfl

theorem name (s : String) : Carries d t [] [.name s] := fixed (.single rfl) rfl

theorem text (hClear : (Piece.text s).isClear = true) : Carries d t [] [.text s] :=
  fixed (.single hClear) rfl

/-- A placeholder carries the value that is bound to it, with the type of its column. -/
theorem bind {c : Column} {sqlType : String} (hType : d.columnType t.name c = .ok sqlType)
    (v : Value) : Carries d t [⟨some c, v⟩] [.bind v sqlType] :=
  ⟨.single rfl, .cons ⟨rfl, c, rfl, hType⟩ .nil⟩

theorem text_cons (hClear : (Piece.text s).isClear = true) (hCloses : (Piece.text s).closes = true)
    (h : Carries d t ms a) : Carries d t ms (.text s :: a) :=
  ⟨h.spaced.text_cons hClear hCloses, h.params⟩

/-- Parts joined by a separator carry their values one after the other. -/
theorem linked (hs : separates s = true) (ha : Carries d t ms a) (hb : Carries d t ns b) :
    Carries d t (ms ++ ns) (a ++ .text s :: b) := by
  refine ⟨.linked hs ha.spaced hb.spaced, ?_⟩
  rw [params_append, params_text]
  exact List.rel_append ha.params hb.params

/-- Parentheses carry what is between them. -/
theorem enclosed (h : Carries d t ms a) : Carries d t ms (Sql.enclosed a) :=
  ⟨h.spaced.enclosed, (params_enclosed a).symm ▸ h.params⟩

/-- Parts of a list carry their values in the order of the list. -/
theorem joined (hs : separates s = true) {mss : List (List Mention)} {parts : List Sql}
    (h : List.Forall₂ (Carries d t) mss parts) : Carries d t mss.flatten (Sql.joined s parts) := by
  induction h with
  | nil => exact nothing
  | @cons ms part mss parts hFirst hRest ih =>
      cases hRest with
      | nil =>
          rw [List.flatten_cons, List.flatten_nil, List.append_nil]
          exact hFirst
      | cons hNext hRest => exact linked hs hFirst ih

/-- Parts that mention one value each. -/
theorem joined_single (hs : separates s = true) {ms : List Mention} {parts : List Sql}
    (h : List.Forall₂ (fun m part => Carries d t [m] part) ms parts) :
    Carries d t ms (Sql.joined s parts) := by
  have hParts : List.Forall₂ (Carries d t) (ms.map ([·])) parts :=
    List.forall₂_map_left_iff.mpr h
  have hJoined := joined hs hParts
  rwa [← List.flatMap_def, List.flatMap_singleton'] at hJoined

/-- Parts of fixed text and names, with separators between them. -/
theorem joined_fixed (hs : separates s = true) {parts : List Sql}
    (h : ∀ part ∈ parts, Carries d t [] part) : Carries d t [] (Sql.joined s parts) := by
  have hParts : List.Forall₂ (Carries d t) (parts.map fun _ => []) parts :=
    List.forall₂_map_left_iff.mpr (List.forall₂_same.mpr h)
  have hJoined := joined hs hParts
  rwa [show (parts.map fun _ => ([] : List Mention)).flatten = [] by simp] at hJoined

/-- What a part becomes as a statement of its own. -/
theorem request (hd : d ∈ Dialect.provided) (h : Carries d t ms a) :
    (d.request a).Binds d t ms :=
  ⟨placeholders_render (quote_mem_of_provided hd) h.spaced, h.params⟩

end Carries

/-- A part that is put behind another one, if it is there at all. -/
inductive Follows (d : Dialect) (t : Table) : List Mention → Sql → Prop where
  | nothing : Follows d t [] []
  | text {s : String} {ms : List Mention} {a : Sql} (hs : separates s = true)
      (h : Carries d t ms a) : Follows d t ms (.text s :: a)

/-- An optional part carries its values behind those before it. -/
theorem Carries.followed {ms ns : List Mention} {a b : Sql} (ha : Carries d t ms a)
    (hb : Follows d t ns b) : Carries d t (ms ++ ns) (a ++ b) := by
  cases hb with
  | nothing => rwa [List.append_nil, List.append_nil]
  | text hs hb => exact ha.linked hs hb

end Sql

open Sql (Carries Follows)

variable {d : Dialect} {t : Table} {operation : Operation}

/-! ### Filters -/

namespace Predicate

theorem params_comparison (o : Operator) (sqlType : String) (values : List Value) :
    Sql.params (comparison o sqlType values) = (o.operands values).map fun v => ⟨v, sqlType⟩ := by
  have hClosing : Sql.params o.closing = [] := by cases o <;> rfl
  rw [comparison_eq, List.cons_append, Sql.params_text, Sql.params_append, hClosing,
    List.append_nil, Sql.params_joined, List.flatMap_map]
  exact List.map_eq_flatMap.symm

/-- A comparison binds the values it mentions. -/
theorem bound_params {p : Predicate} {sql : Sql} (h : p.sql d t operation = .ok sql) :
    List.Forall₂ (Mention.IsBound d t) (p.mentions t) sql.params := by
  obtain ⟨c, o, sqlType, hFind, hFor, hType, rfl⟩ := sql_eq_ok_iff.mp h
  obtain ⟨rfl, -⟩ := eq_meant_of_forValues hFor
  rw [Sql.params_name, params_comparison, mentions, hFind, List.forall₂_map_left_iff,
    List.forall₂_map_right_iff, List.forall₂_same]
  exact fun v _ => ⟨rfl, c, rfl, hType⟩

end Predicate

namespace Condition

/-- A condition binds the values its comparisons mention, from left to right. -/
theorem Written.bound_params {c : Condition} {sql : Sql} (h : Written d t operation c sql) :
    List.Forall₂ (Mention.IsBound d t) (c.leaves.flatMap (·.mentions t)) sql.params := by
  induction h with
  | @leaf p sql h =>
      rw [leaves, List.flatMap_singleton]
      exact Predicate.bound_params h
  | @first link c sql h ih =>
      rw [asChild, Sql.params_enclosedIf]
      simpa [leaves, leavesOf] using ih
  | @next seen link c left right hSeen hLeft hRight ihLeft ihRight =>
      rw [leaves_concat, List.flatMap_append, Sql.params_append, Sql.params_text, regrouped, asChild,
        Sql.params_enclosedIf, Sql.params_enclosedIf]
      exact List.rel_append ihLeft ihRight

/-- A clause carries the values of its condition. -/
theorem follows_clause {filter : Option Condition} {sql : Sql}
    (h : clause d t operation (effective filter) = .ok sql) :
    Follows d t ((asked filter).flatMap (·.mentions t)) sql := by
  rw [← asked_effective]
  cases hEffective : effective filter with
  | none =>
      rw [hEffective] at h
      obtain rfl := Except.ok.inj h
      exact .nothing
  | some c =>
      rw [hEffective, clause, Result.bind_eq_ok_iff] at h
      obtain ⟨condition, hSql, hWhere⟩ := h
      obtain rfl := Except.ok.inj hWhere
      have hWritten := written_of_sql c hSql
      exact .text rfl ⟨hWritten.spaced, hWritten.bound_params⟩

end Condition

/-! ### Names -/

theorem Table.carries_reference : Carries d t [] t.reference := by
  unfold Table.reference
  split
  · exact .name t.name
  · exact (Carries.name t.schema).linked (s := ".") rfl (.name t.name)

/-- The words of a statement, its table and its filter. -/
theorem Table.carries_filtered {s : String} (hClear : (Piece.text s).isClear = true)
    (hCloses : (Piece.text s).closes = true) {filter : Option Condition} {clause : Sql}
    (h : Condition.clause d t operation (Condition.effective filter) = .ok clause) :
    Carries d t ((asked filter).flatMap (·.mentions t)) (.text s :: t.reference ++ clause) := by
  have hTable : Carries d t [] (.text s :: t.reference) :=
    .text_cons hClear hCloses carries_reference
  exact hTable.followed (Condition.follows_clause h)

theorem Column.carries_nameList (columns : List Column) :
    Carries d t [] (Column.nameList columns) := by
  refine .joined_fixed rfl fun part hPart => ?_
  obtain ⟨c, -, rfl⟩ := List.mem_map.mp hPart
  exact .name c.name

/-! ### Insertions -/

namespace Insert

/-- The columns of an insertion are those its names resolve to. -/
theorem targets_eq {i : Insert} {columns : List Column}
    (h : i.table.columnsOrAll .insert i.columns = .ok columns) : i.targets = columns.map some := by
  unfold Table.columnsOrAll at h
  unfold targets
  cases hAll : i.columns.isEmpty with
  | true =>
      rw [hAll] at h
      obtain rfl := Except.ok.inj h
      rfl
  | false =>
      rw [hAll] at h
      exact Table.find?_of_columnsOf h

theorem forall₂_columnTypes {columns : List Column} {types : List String}
    (h : columnTypes d t.name columns = .ok types) :
    List.Forall₂ (fun c type => d.columnType t.name c = .ok type) columns types := by
  induction columns generalizing types with
  | nil =>
      obtain rfl := Except.ok.inj h
      exact .nil
  | cons c columns ih =>
      simp only [columnTypes, Result.bind_eq_ok_iff] at h
      obtain ⟨type, hType, rest, hRest, hTypes⟩ := h
      obtain rfl := Except.ok.inj hTypes
      exact .cons hType (ih hRest)

theorem length_of_misfit? {width index : Nat} {rows : List (List Value)}
    (h : misfit? width index rows = none) : ∀ row ∈ rows, row.length = width := by
  induction rows generalizing index with
  | nil => simp
  | cons row rows ih =>
      unfold misfit? at h
      split at h
      · next hLength =>
          intro other hOther
          rcases List.mem_cons.mp hOther with rfl | hOther
          · exact hLength
          · exact ih h other hOther
      · simp at h

/-- A row carries its values, each with the type of its column. -/
theorem carries_rowSql {columns : List Column} {types : List String}
    (hTypes : List.Forall₂ (fun c type => d.columnType t.name c = .ok type) columns types)
    {row : List Value} (hLength : row.length = columns.length) :
    Carries d t (rowMentions (columns.map some) row) (rowSql types row) := by
  refine .enclosed (.joined_single rfl ?_)
  induction hTypes generalizing row with
  | nil =>
      obtain rfl := List.eq_nil_of_length_eq_zero hLength
      exact .nil
  | @cons c type columns types hType hRest ih =>
      cases row with
      | nil => simp at hLength
      | cons v row => exact .cons (.bind hType v) (ih (Nat.succ.inj hLength))

/-- The rows of an insertion carry their values, row by row. -/
theorem carries_rowsSql {columns : List Column} {types : List String}
    (hTypes : List.Forall₂ (fun c type => d.columnType t.name c = .ok type) columns types)
    {rows : List (List Value)} (hLengths : ∀ row ∈ rows, row.length = columns.length) :
    Carries d t (rows.flatMap (rowMentions (columns.map some))) (rowsSql t columns types rows) := by
  have hRows : List.Forall₂ (Carries d t) (rows.map (rowMentions (columns.map some)))
      (rows.map (rowSql types)) := by
    rw [List.forall₂_map_left_iff, List.forall₂_map_right_iff, List.forall₂_same]
    exact fun row hRow => carries_rowSql hTypes (hLengths row hRow)
  have hTable : Carries d t [] (.text "INSERT INTO " :: t.reference) :=
    .text_cons rfl rfl Table.carries_reference
  have hNames := hTable.linked (s := " (") rfl (Column.carries_nameList columns)
  exact hNames.linked (s := ") VALUES\n") rfl (.joined rfl hRows)

theorem map_value_rowMentions (targets : List (Option Column)) (row : List Value) :
    (rowMentions targets row).map Mention.value = row := by
  induction row generalizing targets with
  | nil => cases targets <;> rfl
  | cons v row ih => cases targets <;> simp [rowMentions, ih]

/-- The values of all rows are bound as they are, row after row. -/
theorem map_value_params_rowsSql {columns : List Column} {types : List String}
    (hTypes : columnTypes d t.name columns = .ok types) {rows : List (List Value)}
    (hLengths : ∀ row ∈ rows, row.length = columns.length) :
    (Sql.params (rowsSql t columns types rows)).map Param.value = rows.flatten := by
  have hCarries := carries_rowsSql (forall₂_columnTypes hTypes) hLengths
  have hValues : List.Forall₂ Eq
      ((rows.flatMap (rowMentions (columns.map some))).map Mention.value)
      ((Sql.params (rowsSql t columns types rows)).map Param.value) :=
    List.rel_map (fun _ _ hBound => hBound.1.symm) hCarries.params
  rw [List.forall₂_eq_eq_eq, List.map_flatMap] at hValues
  simp only [map_value_rowMentions, List.flatMap_id'] at hValues
  exact hValues.symm

/-- An upsert clause carries no value. -/
theorem follows_upsertSql? {style : UpsertStyle} {columns key : List Column} {clause : Sql}
    (h : upsertSql? style columns key = some clause) : Follows d t [] clause := by
  cases style with
  | none => simp [upsertSql?] at h
  | onDuplicateKey =>
      obtain rfl := Option.some.inj h
      refine .text rfl (.joined_fixed rfl fun part hPart => ?_)
      obtain ⟨c, -, rfl⟩ := List.mem_map.mp hPart
      have hValues : Carries d t [] [.name c.name, .text ")"] :=
        (Carries.name c.name).linked (s := ")") rfl .nothing
      exact (Carries.name c.name).linked (s := " = VALUES(") rfl hValues
  | onConflict =>
      obtain rfl := Option.some.inj h
      refine .text rfl ((Column.carries_nameList key).linked (s := ")") rfl ?_)
      split
      · exact .text rfl
      · refine .text_cons rfl rfl (.joined_fixed rfl fun part hPart => ?_)
        obtain ⟨c, -, rfl⟩ := List.mem_map.mp hPart
        exact (Carries.name c.name).linked (s := " = EXCLUDED.") rfl (.name c.name)

/-- What is known of an insertion that compiles, with statements or without an upsert to give. -/
theorem resolved_of_compileUpsert {i : Insert} {requests? : Option (List Request)}
    (h : i.compileUpsert = .ok requests?) :
    ∃ columns types, i.table.columnsOrAll .insert i.columns = .ok columns ∧
      misfit? columns.length 0 i.rows = none ∧
      columnTypes i.dialect i.table.name columns = .ok types ∧
      requests? = (if i.upsert then upsertSql? i.dialect.upsert columns i.table.key else some []).map
        fun clause => (batches i.dialect i.rows).map fun rows =>
          i.dialect.request (rowsSql i.table columns types rows ++ clause) := by
  simp only [compileUpsert, Result.bind_eq_ok_iff, Result.guard_eq_ok_iff] at h
  obtain ⟨columns, hColumns, -, h⟩ := h
  cases hMisfit : misfit? columns.length 0 i.rows with
  | some misfit =>
      rw [hMisfit] at h
      obtain ⟨_, hThrow, -⟩ := Result.bind_eq_ok_iff.mp h
      cases hThrow
  | none =>
      rw [hMisfit] at h
      simp only [Result.bind_eq_ok_iff, Result.guard_eq_ok_iff] at h
      obtain ⟨-, types, hTypes, hRequests⟩ := h
      exact ⟨columns, types, hColumns, hMisfit, hTypes, (Except.ok.inj hRequests).symm⟩

/-- All that compiled insertions can be. -/
theorem compileUpsert_eq_ok {i : Insert} {requests : List Request}
    (h : i.compileUpsert = .ok (some requests)) :
    ∃ columns types clause, i.table.columnsOrAll .insert i.columns = .ok columns ∧
      misfit? columns.length 0 i.rows = none ∧
      columnTypes i.dialect i.table.name columns = .ok types ∧
      (if i.upsert then upsertSql? i.dialect.upsert columns i.table.key else some []) =
        some clause ∧
      requests = (batches i.dialect i.rows).map fun rows =>
        i.dialect.request (rowsSql i.table columns types rows ++ clause) := by
  obtain ⟨columns, types, hColumns, hMisfit, hTypes, hRequests⟩ := resolved_of_compileUpsert h
  obtain ⟨clause, hClause, hSome⟩ := Option.map_eq_some_iff.mp hRequests.symm
  exact ⟨columns, types, clause, hColumns, hMisfit, hTypes, hClause, hSome.symm⟩

theorem mem_rows_of_mem_batches {rows batch : List (List Value)} (hBatch : batch ∈ batches d rows)
    {row : List Value} (hRow : row ∈ batch) : row ∈ rows := by
  unfold batches at hBatch
  split at hBatch
  · obtain rfl := List.mem_singleton.mp hBatch
    exact hRow
  · obtain ⟨other, hOther, rfl⟩ := List.mem_map.mp hBatch
    obtain rfl := List.mem_singleton.mp hRow
    exact hOther

theorem compileUpsert_of_compile {i : Insert} {requests : List Request}
    (h : i.compile = .ok requests) : i.compileUpsert = .ok (some requests) := by
  obtain ⟨requests?, hUpsert, h⟩ := Result.bind_eq_ok_iff.mp h
  cases requests? with
  | none => cases h
  | some others => rw [hUpsert, Except.ok.inj h]

/-- The statement for some of the rows. -/
theorem carries_batch {i : Insert} {columns : List Column} {types : List String} {clause : Sql}
    (hMisfit : misfit? columns.length 0 i.rows = none)
    (hTypes : columnTypes i.dialect i.table.name columns = .ok types)
    (hClause : (if i.upsert then upsertSql? i.dialect.upsert columns i.table.key else some []) =
      some clause) {batch : List (List Value)} (hBatch : batch ∈ batches i.dialect i.rows) :
    Carries i.dialect i.table (batch.flatMap (rowMentions (columns.map some)))
      (rowsSql i.table columns types batch ++ clause) := by
  have hFollows : Follows i.dialect i.table [] clause := by
    split at hClause
    · exact follows_upsertSql? hClause
    · obtain rfl := Option.some.inj hClause
      exact .nothing
  have hLengths : ∀ row ∈ batch, row.length = columns.length := fun row hRow =>
    length_of_misfit? hMisfit row (mem_rows_of_mem_batches hBatch hRow)
  have hWhole := (carries_rowsSql (forall₂_columnTypes hTypes) hLengths).followed hFollows
  rwa [List.append_nil] at hWhole

/-- An insertion binds its values. -/
theorem binds_of_compile {i : Insert} (hd : i.dialect ∈ Dialect.provided)
    {requests : List Request} (h : i.compile = .ok requests) :
    List.Forall₂ (Request.Binds i.dialect i.table) (Statement.mentions (.insert i)) requests := by
  obtain ⟨columns, types, clause, hColumns, hMisfit, hTypes, hClause, rfl⟩ :=
    compileUpsert_eq_ok (compileUpsert_of_compile h)
  rw [Statement.mentions, targets_eq hColumns, List.forall₂_map_left_iff,
    List.forall₂_map_right_iff, List.forall₂_same]
  exact fun batch hBatch => (carries_batch hMisfit hTypes hClause hBatch).request hd

end Insert

/-! ### Updates and deletions -/

namespace Update

theorem forall₂_assignmentSql {assignments : List (String × Value)}
    {columns : List (Column × Value)} {parts : List Sql}
    (hColumns : resolved t assignments = .ok columns)
    (hParts : assignmentSql d t.name columns = .ok parts) :
    List.Forall₂ (fun m part => Carries d t [m] part)
      (assignments.map fun x => ⟨t.find? x.1, x.2⟩) parts := by
  induction assignments generalizing columns parts with
  | nil =>
      obtain rfl := Except.ok.inj hColumns
      obtain rfl := Except.ok.inj hParts
      exact .nil
  | cons x assignments ih =>
      obtain ⟨name, v⟩ := x
      simp only [resolved, Result.bind_eq_ok_iff] at hColumns
      obtain ⟨c, hColumn, cs, hRest, hAll⟩ := hColumns
      obtain rfl := Except.ok.inj hAll
      simp only [assignmentSql, Result.bind_eq_ok_iff] at hParts
      obtain ⟨type, hType, rest, hOthers, hAll⟩ := hParts
      obtain rfl := Except.ok.inj hAll
      refine .cons ?_ (ih hRest hOthers)
      dsimp only
      rw [Table.find?_of_column hColumn]
      exact (Carries.name c.name).linked (s := " = ") rfl (.bind hType v)

/-- An update carries the assigned values and then those of its condition. -/
theorem carries_sql {u : Update} {columns : List (Column × Value)} {parts : List Sql} {clause : Sql}
    (hColumns : resolved u.table u.assignments = .ok columns)
    (hParts : assignmentSql u.dialect u.table.name columns = .ok parts)
    (hClause : Condition.clause u.dialect u.table .update (Condition.effective u.filter) =
      .ok clause) :
    Carries u.dialect u.table (u.assignments.map (fun x => ⟨u.table.find? x.1, x.2⟩) ++
        (asked u.filter).flatMap (·.mentions u.table))
      (.text "UPDATE " :: u.table.reference ++ .text "\nSET " :: Sql.joined ", " parts ++ clause) := by
  have hTable : Carries u.dialect u.table [] (.text "UPDATE " :: u.table.reference) :=
    .text_cons rfl rfl Table.carries_reference
  have hSet := hTable.linked (s := "\nSET ") rfl
    (.joined_single (s := ", ") rfl (forall₂_assignmentSql hColumns hParts))
  exact hSet.followed (Condition.follows_clause hClause)

/-- An update binds the assigned values and then those of its condition. -/
theorem binds_of_compile {u : Update} (hd : u.dialect ∈ Dialect.provided) {r : Request}
    (h : u.compile = .ok r) :
    r.Binds u.dialect u.table (u.assignments.map (fun x => ⟨u.table.find? x.1, x.2⟩) ++
      (asked u.filter).flatMap (·.mentions u.table)) := by
  simp only [Update.compile, Result.guard_eq_ok_iff, Result.bind_eq_ok_iff] at h
  obtain ⟨-, -, columns, hColumns, parts, hParts, clause, hClause, hRequest⟩ := h
  obtain rfl := Except.ok.inj hRequest
  exact (carries_sql hColumns hParts hClause).request hd

end Update

/-- A deletion binds the values of its condition. -/
theorem Delete.binds_of_compile {x : Delete} (hd : x.dialect ∈ Dialect.provided) {r : Request}
    (h : x.compile = .ok r) :
    r.Binds x.dialect x.table ((asked x.filter).flatMap (·.mentions x.table)) := by
  simp only [Delete.compile, Result.guard_eq_ok_iff, Result.bind_eq_ok_iff] at h
  obtain ⟨-, clause, hClause, hRequest⟩ := h
  obtain rfl := Except.ok.inj hRequest
  exact (Table.carries_filtered rfl rfl hClause).request hd

/-! ### Queries -/

theorem isClear_append {a b : String} (ha : (Piece.text a).isClear = true)
    (hb : (Piece.text b).isClear = true) : (Piece.text (a ++ b)).isClear = true := by
  rw [Piece.isClear, String.toList_append, List.all_append, Bool.and_eq_true]
  exact ⟨ha, hb⟩

theorem isClear_toString (n : Nat) : (Piece.text (toString n)).isClear = true := by
  have hText : (toString n).toList = Nat.toDigits 10 n := by simp
  rw [Piece.isClear, hText, List.all_eq_true]
  intro c hc
  have hDigit := Nat.isDigit_of_mem_toDigits (b := 10) (n := n) (by decide) (by decide) hc
  rw [decide_eq_true_eq]
  intro hReserved
  simp only [Piece.reserved, List.mem_cons, List.not_mem_nil, or_false] at hReserved
  rcases hReserved with rfl | rfl | rfl | rfl | rfl <;> revert hDigit <;> decide

theorem Dialect.isClear_windowText (d : Dialect) (offset limit : Nat) :
    (Piece.text (d.windowText offset limit)).isClear = true := by
  have hEmpty : (Piece.text "").isClear = true := rfl
  unfold windowText
  cases d.window with
  | limitOffset =>
      refine isClear_append (isClear_append rfl (isClear_toString limit)) ?_
      split
      · exact isClear_append rfl (isClear_toString offset)
      · exact hEmpty
  | offsetLimit =>
      refine isClear_append (isClear_append rfl ?_) (isClear_toString limit)
      split
      · exact isClear_append (isClear_toString offset) rfl
      · exact hEmpty

namespace Query

theorem follows_orderSql (keys : List (Column × Direction)) : Follows d t [] (orderSql keys) := by
  unfold orderSql
  split
  · exact .nothing
  · refine .text rfl (.joined_fixed rfl fun part hPart => ?_)
    obtain ⟨⟨c, direction⟩, -, rfl⟩ := List.mem_map.mp hPart
    have hWord : (Piece.text direction.word).isClear = true ∧
        (Piece.text direction.word).opens = true := by
      cases direction <;> exact ⟨rfl, rfl⟩
    have hName : Sql.Spaced [.name c.name] := .single rfl
    exact .fixed (hName.append_opening (.single hWord.1) (by simp [hWord.2])) rfl

theorem follows_windowSql (window : Option (Nat × Nat)) : Follows d t [] (windowSql d window) := by
  match window with
  | none => exact .nothing
  | some (offset, n) => exact .text rfl (.text (d.isClear_windowText offset n))

/-- A query carries the values of its condition. -/
theorem carries_sql {q : Query} (columns : List Column) {clause : Sql}
    (keys : List (Column × Direction)) (window : Option (Nat × Nat))
    (hClause : Condition.clause q.dialect q.table .query (Condition.effective q.filter) =
      .ok clause) :
    Carries q.dialect q.table ((asked q.filter).flatMap (·.mentions q.table))
      (.text "SELECT " :: Column.nameList columns ++ .text "\nFROM " :: q.table.reference ++
        clause ++ orderSql keys ++ windowSql q.dialect window) := by
  have hNames : Carries q.dialect q.table [] (.text "SELECT " :: Column.nameList columns) :=
    .text_cons rfl rfl (Column.carries_nameList columns)
  have hTable := hNames.linked (s := "\nFROM ") rfl Table.carries_reference
  have hFilter := hTable.followed (Condition.follows_clause hClause)
  have hWhole := (hFilter.followed (follows_orderSql keys)).followed (follows_windowSql window)
  rwa [List.append_nil, List.append_nil] at hWhole

/-- A query binds the values of its condition. -/
theorem binds_of_compile {q : Query} (hd : q.dialect ∈ Dialect.provided) {r : Request}
    (h : q.compile = .ok r) :
    r.Binds q.dialect q.table ((asked q.filter).flatMap (·.mentions q.table)) := by
  simp only [Query.compile, Result.bind_eq_ok_iff] at h
  obtain ⟨columns, hColumns, keys, hKeys, window, hWindow, clause, hClause, hRequest⟩ := h
  obtain rfl := Except.ok.inj hRequest
  exact (carries_sql columns keys window hClause).request hd

/-- A count binds the values of its condition. -/
theorem binds_of_countRequest {q : Query} (hd : q.dialect ∈ Dialect.provided) {r : Request}
    (h : q.countRequest = .ok r) :
    r.Binds q.dialect q.table ((asked q.filter).flatMap (·.mentions q.table)) := by
  simp only [Query.countRequest, Result.bind_eq_ok_iff] at h
  obtain ⟨clause, hClause, hRequest⟩ := h
  obtain rfl := Except.ok.inj hRequest
  exact (Table.carries_filtered rfl rfl hClause).request hd

end Query

namespace Statement

/-- Every request of a statement has its values as parameters, in order and with the types of their
columns, and one placeholder for each. -/
theorem forall₂_binds_of_compile {s : Statement} (hd : s.dialect ∈ Dialect.provided)
    {requests : List Request} (h : s.compile = .ok requests) :
    List.Forall₂ (Request.Binds s.dialect s.table) s.mentions requests := by
  have hSingle {x : Result Request} (h : x.map ([·]) = .ok requests) :
      ∃ r, x = .ok r ∧ requests = [r] := by
    obtain ⟨r, hr, hSome⟩ := Result.map_eq_ok_iff.mp h
    exact ⟨r, hr, hSome.symm⟩
  cases s with
  | insert i => exact Insert.binds_of_compile hd h
  | update u =>
      obtain ⟨r, hr, rfl⟩ := hSingle h
      exact .cons (Update.binds_of_compile hd hr) .nil
  | delete x =>
      obtain ⟨r, hr, rfl⟩ := hSingle h
      exact .cons (Delete.binds_of_compile hd hr) .nil
  | select q =>
      obtain ⟨r, hr, rfl⟩ := hSingle h
      exact .cons (Query.binds_of_compile hd hr) .nil
  | count q =>
      obtain ⟨r, hr, rfl⟩ := hSingle h
      exact .cons (Query.binds_of_countRequest hd hr) .nil

/-- Names and values that look like placeholders, and a test for NULL between two comparisons. -/
theorem forall₂_binds_of_compile_hostile :
    let t : Table := { name := "t ?", columns := [.ofTy "a $1" .text, .ofTy "b" .boolean] }
    let filter := Condition.all [
      .compare "b" .between [.boolean (some false), .boolean (some true)],
      .compare "a $1" .equal [.null], .compare "a $1" .isIn [.text (some "$2"), .text none]]
    let u : Update :=
      { table := t, dialect := .generic, assignments := [("B", .null), ("a $1", .text (some "?"))],
        filter := some filter }
    ∃ r, u.compile = .ok r ∧ r.params.length = 6 ∧
      List.Forall₂ (Request.Binds .generic t) (mentions (.update u)) [r] := by
  intro t filter u
  have hCompile : (Statement.update u).compile = .ok [_] := rfl
  have hProvided : (Statement.update u).dialect ∈ Dialect.provided := by
    simp [Dialect.provided, u, dialect]
  exact ⟨_, rfl, rfl, forall₂_binds_of_compile hProvided hCompile⟩

end Statement

end SqlMapper
