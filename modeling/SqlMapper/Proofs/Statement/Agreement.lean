import SqlMapper.Proofs.Statement.Resolution
import SqlMapper.Proofs.Statement.Window

/-! One builder in several dialects. They write different letters and different types, and put their
windows differently, but what a database reads is the same: the same tokens, the same window and the
same values. The runs in two dialects are followed piece by piece and differ in the types of bound
values only. -/
namespace SqlMapper

/-! ### Readings -/

/-- What a database takes in at once: a token, or a window clause as a whole. -/
inductive Lexeme where
  | token (t : Token Unit)
  /-- The counts of skipped rows and of rows returned at most. -/
  | window (offset n : Nat)
  deriving DecidableEq, Repr

/-- What a database takes from a request. -/
structure Reading where
  values : List Value
  lexemes : List Lexeme

namespace Dialect

/-- The text of a statement as tokens without positions, its window clause read in the order of the
dialect. -/
def lexemes (d : Dialect) (sql : String) : List Lexeme :=
  (d.body sql).map (.token ·.unnumbered) ++
    match d.windowSyntax.read (d.windowTokens sql) with
    | some (offset, n) => [.window offset n]
    | none => (d.windowTokens sql).map (.token ·.unnumbered)

def reading (d : Dialect) (r : Request) : Reading := ⟨r.values, d.lexemes r.sql⟩

example : mysql.lexemes "SELECT \x60a b\x60\nLIMIT 5, 10" =
    generic.lexemes "SELECT \"a b\"\nLIMIT 10 OFFSET 5" := by decide +kernel

variable {d : Dialect} (hd : d ∈ provided)
include hd

/-- The window is the only part of a query a dialect spells its own way. -/
theorem lexemes_windowed {sql : Sql} (hSpaced : sql.Spaced) (hWorded : sql.Worded)
    (window : Option (Nat × Nat)) :
    d.lexemes (d.render (sql ++ Query.windowSql d window)) = sql.plainTokens.map .token ++
      window.elim [] fun (offset, n) => [.window offset n] := by
  obtain ⟨hBody, hClause⟩ := Query.split_windowed hd hSpaced (hWorded.windowless hd) window
  have hTokens : (sql.tokens d 1).map (Lexeme.token ·.unnumbered) = sql.plainTokens.map .token := by
    rw [← hWorded.map_unnumbered_tokens hd 1, List.map_map]
    rfl
  rw [lexemes, hBody, hClause, hTokens]
  cases window with
  | none => cases d.windowSyntax <;> rfl
  | some bounds => simp [read_windowClause hd]

end Dialect

/-! ### Parts without types -/

/-- The piece without the database type of its value. -/
def Piece.untyped : Piece → Piece
  | .bind v _ => .bind v ""
  | p => p

/-- The dialect has a type for every column. -/
def Table.Typed (d : Dialect) (t : Table) : Prop :=
  ∀ c ∈ t.columns, ∃ type, d.columnType t.name c = .ok type

namespace Sql

theorem plainTokens_untyped (sql : Sql) : plainTokens (sql.map Piece.untyped) = sql.plainTokens := by
  induction sql with
  | nil => rfl
  | cons p sql ih => cases p <;> simp [plainTokens, Piece.untyped, ih]

theorem values_untyped (sql : Sql) :
    (params (sql.map Piece.untyped)).map Param.value = sql.params.map Param.value := by
  induction sql with
  | nil => rfl
  | cons p sql ih => cases p <;> simp [Piece.untyped, ih]

/-- The part can be read piece by piece, in every dialect alike. -/
structure Legible (sql : Sql) : Prop where
  spaced : sql.Spaced
  worded : sql.Worded

namespace Legible

variable {d e : Dialect} (hd : d ∈ Dialect.provided) (he : e ∈ Dialect.provided)
  {a b : Sql} (ha : a.Legible) (hb : b.Legible)
  (hSame : a.map Piece.untyped = b.map Piece.untyped)
include hd he ha hb hSame

/-- Texts that differ in the types of bound values only are read alike. -/
theorem reading_windowed_eq (window : Option (Nat × Nat)) :
    d.reading (d.request (a ++ Query.windowSql d window)) =
      e.reading (e.request (b ++ Query.windowSql e window)) := by
  have hTokens : a.plainTokens = b.plainTokens := by
    rw [← plainTokens_untyped, hSame, plainTokens_untyped]
  have hValues : a.params.map Param.value = b.params.map Param.value := by
    rw [← values_untyped, hSame, values_untyped]
  have hWindow (d : Dialect) : params (Query.windowSql d window) = [] := by cases window <;> rfl
  simp only [Dialect.reading, Dialect.request, Request.values, params_append, hWindow,
    List.append_nil, Dialect.lexemes_windowed hd ha.spaced ha.worded,
    Dialect.lexemes_windowed he hb.spaced hb.worded, hTokens, hValues]

/-- Statements that differ only in the types of their parameters read alike. -/
theorem reading_eq : d.reading (d.request a) = e.reading (e.request b) := by
  simpa [Query.windowSql] using reading_windowed_eq hd he ha hb hSame none

end Legible

end Sql

theorem Predicate.untyped_comparison (o : Operator) (sqlType : String) (values : List Value) :
    (comparison o sqlType values).map Piece.untyped = comparison o "" values := by
  have hClosing : o.closing.map Piece.untyped = o.closing := by cases o <;> rfl
  have hOpening : Piece.untyped (.text o.opening) = .text o.opening := rfl
  simp only [comparison_eq, List.cons_append, List.map_cons, List.map_append, hOpening, hClosing,
    Sql.map_joined (f := Piece.untyped) rfl, List.map_map]
  rfl

section Parts

variable {d e : Dialect} {t : Table} {operation : Operation}

/-- A comparison is written alike but for the types of its parameters. -/
theorem Predicate.sql_agree (hd : t.Typed d) (he : t.Typed e) (p : Predicate) :
    (p.sql d t operation).map (List.map Piece.untyped) =
      (p.sql e t operation).map (List.map Piece.untyped) := by
  refine Result.map_bind_congr_right_ok fun c hColumn => ?_
  have hc := Table.mem_of_column hColumn
  obtain ⟨type, hType⟩ := hd c hc
  obtain ⟨type', hType'⟩ := he c hc
  cases p.operator.forValues p.values with
  | error reason => rfl
  | ok o =>
      dsimp only
      rw [hType, hType']
      refine congrArg Except.ok ?_
      rw [List.map_cons, List.map_cons, untyped_comparison, untyped_comparison]

namespace Condition

mutual

/-- A condition is written alike but for the types of its parameters. -/
theorem sql_agree (hd : t.Typed d) (he : t.Typed e) :
    ∀ c : Condition, (c.sql d t operation).map (List.map Piece.untyped) =
      (c.sql e t operation).map (List.map Piece.untyped)
  | leaf p => p.sql_agree hd he
  | group [] => rfl
  | group ((_, c) :: rest) => by
      rw [Condition.sql, Condition.sql]
      refine Result.map_bind_congr (sql_agree hd he c) fun a b hSame => ?_
      refine sqlAfter_agree hd he rest ?_ none
      change (c.asChild a).map _ = (c.asChild b).map _
      rw [asChild, asChild, Sql.map_enclosedIf (fun _ => rfl), Sql.map_enclosedIf (fun _ => rfl),
        hSame]

/-- What follows in a group is written alike but for the types of its parameters. -/
theorem sqlAfter_agree (hd : t.Typed d) (he : t.Typed e) :
    ∀ (rest : List (Link × Condition)) {a b : Sql},
      a.map Piece.untyped = b.map Piece.untyped → ∀ previous,
      (sqlAfter d t operation a previous rest).map (List.map Piece.untyped) =
        (sqlAfter e t operation b previous rest).map (List.map Piece.untyped)
  | [], a, b, hSame, _ => congrArg Except.ok hSame
  | (link, c) :: rest, a, b, hSame, previous => by
      rw [sqlAfter, sqlAfter]
      refine Result.map_bind_congr (sql_agree hd he c) fun right right' hRight => ?_
      refine sqlAfter_agree hd he rest ?_ (some link)
      change (regrouped previous link a ++ .text link.word :: c.asChild right).map _ =
        (regrouped previous link b ++ .text link.word :: c.asChild right').map _
      simp only [List.map_append, List.map_cons, regrouped, asChild,
        Sql.map_enclosedIf (f := Piece.untyped) (fun _ => rfl), hSame, hRight]

end

/-- A clause is written alike but for the types of its parameters. -/
theorem clause_agree (hd : t.Typed d) (he : t.Typed e) (filter : Option Condition) :
    (clause d t operation filter).map (List.map Piece.untyped) =
      (clause e t operation filter).map (List.map Piece.untyped) := by
  cases filter with
  | none => rfl
  | some c =>
      refine Result.map_bind_congr (sql_agree hd he c) fun a b hSame => congrArg Except.ok ?_
      rw [List.map_cons, List.map_cons, hSame]

end Condition

end Parts

/-! ### Builders -/

section Builders

variable {d e : Dialect}

namespace Insert

/-- In a dialect that can type the table every column has a type. -/
theorem exists_columnTypes {t : Table} (hd : t.Typed d) {columns : List Column}
    (hColumns : ∀ c ∈ columns, c ∈ t.columns) :
    ∃ types, columnTypes d t.name columns = .ok types ∧ types.length = columns.length := by
  induction columns with
  | nil => exact ⟨[], rfl, rfl⟩
  | cons c columns ih =>
      rw [List.forall_mem_cons] at hColumns
      obtain ⟨type, hType⟩ := hd c hColumns.1
      obtain ⟨types, hTypes, hLength⟩ := ih hColumns.2
      refine ⟨type :: types, ?_, congrArg Nat.succ hLength⟩
      rw [columnTypes, hType, hTypes]
      rfl

theorem untyped_bindings {types types' : List String} (hLength : types.length = types'.length)
    (row : List Value) :
    (row.zipWith (fun v type => [Piece.bind v type]) types).map (List.map Piece.untyped) =
      (row.zipWith (fun v type => [Piece.bind v type]) types').map (List.map Piece.untyped) := by
  induction row generalizing types types' with
  | nil => rfl
  | cons v row ih =>
      cases types with
      | nil =>
          obtain rfl := List.eq_nil_of_length_eq_zero hLength.symm
          rfl
      | cons type types =>
          cases types' with
          | nil => simp at hLength
          | cons type' types' => exact congrArg (List.cons _) (ih (Nat.succ.inj hLength))

/-- The rows of an insertion are written alike but for the types. -/
theorem untyped_rowsSql (t : Table) (columns : List Column) {types types' : List String}
    (hLength : types.length = types'.length) (rows : List (List Value)) :
    (rowsSql t columns types rows).map Piece.untyped =
      (rowsSql t columns types' rows).map Piece.untyped := by
  have hRow (row : List Value) :
      (rowSql types row).map Piece.untyped = (rowSql types' row).map Piece.untyped := by
    change (Sql.enclosedIf true _).map _ = (Sql.enclosedIf true _).map _
    rw [Sql.map_enclosedIf (fun _ => rfl), Sql.map_enclosedIf (fun _ => rfl), Sql.map_joined rfl,
      Sql.map_joined rfl, untyped_bindings hLength]
  have hRows : (rows.map (rowSql types)).map (List.map Piece.untyped) =
      (rows.map (rowSql types')).map (List.map Piece.untyped) := by
    rw [List.map_map, List.map_map]
    exact List.map_congr_left fun row _ => hRow row
  simp only [rowsSql, List.map_append, List.map_cons, Sql.map_joined (f := Piece.untyped) rfl, hRows]

theorem legible_rowsSql {t : Table} {columns : List Column} {types : List String}
    (hTypes : columnTypes d t.name columns = .ok types) {rows : List (List Value)}
    (hLengths : ∀ row ∈ rows, row.length = columns.length) :
    (rowsSql t columns types rows).Legible :=
  ⟨(carries_rowsSql (forall₂_columnTypes hTypes) hLengths).spaced,
    worded_rowsSql t columns types rows⟩

variable {i : Insert} (hd : d ∈ Dialect.provided) (he : e ∈ Dialect.provided)
  (hTyped : i.table.Typed d) (hTyped' : i.table.Typed e) (hPlain : i.upsert = false)
include hd he hTyped hTyped' hPlain

/-- Plain insertions read alike in two dialects. -/
theorem compileUpsert_agree :
    ({ i with dialect := d } : Insert).compileUpsert.map (Option.map (List.map d.reading)) =
      ({ i with dialect := e } : Insert).compileUpsert.map (Option.map (List.map e.reading)) := by
  have hMany : ∀ d ∈ Dialect.provided, d.multiRow = true := by decide
  simp only [compileUpsert, site, hPlain]
  refine Result.map_bind_congr_right_ok fun columns hColumns => ?_
  refine Result.map_guard_congr fun _ => ?_
  cases hMisfit : misfit? columns.length 0 i.rows with
  | some misfit => exact Result.map_throw_congr
  | none =>
      have hMember := Table.mem_of_columnsOrAll hColumns
      obtain ⟨types, hTypes, hLength⟩ := exists_columnTypes hTyped hMember
      obtain ⟨types', hTypes', hLength'⟩ := exists_columnTypes hTyped' hMember
      have hLengths := length_of_misfit? hMisfit
      have hSame := Sql.Legible.reading_eq hd he (legible_rowsSql hTypes hLengths)
        (legible_rowsSql hTypes' hLengths)
        (untyped_rowsSql i.table columns (hLength.trans hLength'.symm) i.rows)
      simp [hTypes, hTypes', batches, hMany d hd, hMany e he, pure, Except.pure, bind,
        Except.bind, Except.map, hSame]

/-- Plain insertions read alike in two dialects. -/
theorem compile_agree :
    ({ i with dialect := d } : Insert).compile.map (List.map d.reading) =
      ({ i with dialect := e } : Insert).compile.map (List.map e.reading) := by
  refine Result.map_bind_congr_ok (compileUpsert_agree hd he hTyped hTyped' hPlain)
    fun a b ha hb hSame => ?_
  -- Without an upsert there is always something to send.
  have hSome {d : Dialect} : ({ i with dialect := d } : Insert).compileUpsert ≠ .ok none := by
    intro hNone
    obtain ⟨columns, types, -, -, -, hRequests⟩ := resolved_of_compileUpsert hNone
    simp [hPlain] at hRequests
  match a, b with
  | none, _ => exact absurd ha hSome
  | some _, none => exact absurd hb hSome
  | some a, some b => exact congrArg Except.ok (Option.some.inj hSame)

end Insert

namespace Update

theorem assignmentSql_agree {t : Table} (hd : t.Typed d) (he : t.Typed e)
    {columns : List (Column × Value)} (hColumns : ∀ cell ∈ columns, cell.1 ∈ t.columns) :
    (assignmentSql d t.name columns).map (List.map (List.map Piece.untyped)) =
      (assignmentSql e t.name columns).map (List.map (List.map Piece.untyped)) := by
  induction columns with
  | nil => rfl
  | cons cell columns ih =>
      obtain ⟨c, v⟩ := cell
      rw [List.forall_mem_cons] at hColumns
      obtain ⟨type, hType⟩ := hd c hColumns.1
      obtain ⟨type', hType'⟩ := he c hColumns.1
      have hTypes : (d.columnType t.name c).map (fun _ => ()) =
          (e.columnType t.name c).map (fun _ => ()) := by rw [hType, hType', Except.map, Except.map]
      refine Result.map_bind_congr hTypes fun _ _ _ => ?_
      refine Result.map_bind_congr (ih hColumns.2) fun parts parts' hSame => ?_
      exact congrArg (fun rest => Except.ok (_ :: rest)) hSame

/-- Updates read alike in two dialects. -/
theorem compile_agree {u : Update} (hd : d ∈ Dialect.provided) (he : e ∈ Dialect.provided)
    (hTyped : u.table.Typed d) (hTyped' : u.table.Typed e) :
    ({ u with dialect := d } : Update).compile.map d.reading =
      ({ u with dialect := e } : Update).compile.map e.reading := by
  refine Result.map_guard_congr fun _ => Result.map_guard_congr fun _ => ?_
  refine Result.map_bind_congr_right_ok fun columns hColumns => ?_
  refine Result.map_bind_congr_ok (assignmentSql_agree hTyped hTyped' (mem_of_resolved hColumns))
    fun parts parts' hParts hParts' hSame => ?_
  refine Result.map_bind_congr_ok (Condition.clause_agree hTyped hTyped' _)
    fun clause clause' hClause hClause' hSameClause => congrArg Except.ok ?_
  have hLegible := Sql.Legible.mk
    (carries_sql (u := { u with dialect := d }) hColumns hParts hClause).spaced
    (worded_sql hParts hClause)
  have hLegible' := Sql.Legible.mk
    (carries_sql (u := { u with dialect := e }) hColumns hParts' hClause').spaced
    (worded_sql hParts' hClause')
  refine hLegible.reading_eq hd he hLegible' ?_
  simp only [List.map_append, List.map_cons, Sql.map_joined (f := Piece.untyped) rfl, hSame,
    hSameClause]

end Update

/-- Statements of a word, a table and a filter. -/
theorem Table.reading_filtered_eq {t : Table} (hd : d ∈ Dialect.provided)
    (he : e ∈ Dialect.provided) {operation : Operation} {filter : Option Condition}
    {clause clause' : Sql}
    (hClause : Condition.clause d t operation (Condition.effective filter) = .ok clause)
    (hClause' : Condition.clause e t operation (Condition.effective filter) = .ok clause')
    (hSame : clause.map Piece.untyped = clause'.map Piece.untyped) {s : String}
    (hs : s ∈ Sql.vocabulary) (hClear : (Piece.text s).isClear = true)
    (hCloses : (Piece.text s).closes = true) :
    d.reading (d.request (.text s :: t.reference ++ clause)) =
      e.reading (e.request (.text s :: t.reference ++ clause')) := by
  have hLegible := Sql.Legible.mk (carries_filtered hClear hCloses hClause).spaced
    (worded_filtered hs hClause)
  have hLegible' := Sql.Legible.mk (carries_filtered hClear hCloses hClause').spaced
    (worded_filtered hs hClause')
  refine hLegible.reading_eq hd he hLegible' ?_
  simp only [List.map_append, List.map_cons, hSame]

/-- Deletions read alike in two dialects. -/
theorem Delete.compile_agree {x : Delete} (hd : d ∈ Dialect.provided) (he : e ∈ Dialect.provided)
    (hTyped : x.table.Typed d) (hTyped' : x.table.Typed e) :
    ({ x with dialect := d } : Delete).compile.map d.reading =
      ({ x with dialect := e } : Delete).compile.map e.reading := by
  refine Result.map_guard_congr fun _ => ?_
  refine Result.map_bind_congr_ok (Condition.clause_agree hTyped hTyped' _)
    fun clause clause' hClause hClause' hSame => congrArg Except.ok ?_
  exact Table.reading_filtered_eq hd he hClause hClause' hSame (by decide) rfl rfl

namespace Query

variable {q : Query} (hd : d ∈ Dialect.provided) (he : e ∈ Dialect.provided)
  (hTyped : q.table.Typed d) (hTyped' : q.table.Typed e)
include hd he hTyped hTyped'

/-- Queries read alike in two dialects. -/
theorem compile_agree :
    ({ q with dialect := d } : Query).compile.map d.reading =
      ({ q with dialect := e } : Query).compile.map e.reading := by
  refine Result.map_bind_congr_right_ok fun columns hColumns => ?_
  refine Result.map_bind_congr_right_ok fun keys hKeys => ?_
  refine Result.map_bind_congr_right_ok fun window _ => ?_
  refine Result.map_bind_congr_ok (Condition.clause_agree hTyped hTyped' _)
    fun clause clause' hClause hClause' hSame => congrArg Except.ok ?_
  have hParts : Parts { q with dialect := d } columns clause keys := ⟨hColumns, hClause, hKeys⟩
  have hParts' : Parts { q with dialect := e } columns clause' keys := ⟨hColumns, hClause', hKeys⟩
  refine Sql.Legible.reading_windowed_eq hd he ⟨hParts.spaced_body, hParts.worded_body⟩
    ⟨hParts'.spaced_body, hParts'.worded_body⟩ ?_ window
  simp only [bodySql, List.map_append, hSame]

/-- Counts read alike in two dialects. -/
theorem countRequest_agree :
    ({ q with dialect := d } : Query).countRequest.map d.reading =
      ({ q with dialect := e } : Query).countRequest.map e.reading := by
  refine Result.map_bind_congr_ok (Condition.clause_agree hTyped hTyped' _)
    fun clause clause' hClause hClause' hSame => congrArg Except.ok ?_
  exact Table.reading_filtered_eq hd he hClause hClause' hSame (by decide) rfl rfl

end Query

end Builders

/-! ### Statements -/

namespace Statement

/-- The same builder for another dialect. -/
def inDialect (d : Dialect) : Statement → Statement
  | insert i => insert { i with dialect := d }
  | update u => update { u with dialect := d }
  | delete x => delete { x with dialect := d }
  | select q => select { q with dialect := d }
  | count q => count { q with dialect := d }

/-- The statement is to update rows that are there already. -/
def upserts : Statement → Bool
  | insert i => i.upsert
  | _ => false

variable {s : Statement}

/-- Statements without an upsert read alike in two dialects. -/
theorem compile_agree {d e : Dialect} (hd : d ∈ Dialect.provided) (he : e ∈ Dialect.provided)
    (hTyped : s.table.Typed d) (hTyped' : s.table.Typed e) (hPlain : s.upserts = false) :
    (s.inDialect d).compile.map (List.map d.reading) =
      (s.inDialect e).compile.map (List.map e.reading) := by
  have hSingle {x y : Result Request} (h : x.map d.reading = y.map e.reading) :
      (x.map ([·])).map (List.map d.reading) = (y.map ([·])).map (List.map e.reading) := by
    have hMap {α β : Type} (f : α → β) (x : Result α) :
        (x.map ([·])).map (List.map f) = (x.map f).map ([·]) := by cases x <;> rfl
    rw [hMap, hMap, h]
  cases s with
  | insert i => exact Insert.compile_agree hd he hTyped hTyped' hPlain
  | update u => exact hSingle (Update.compile_agree hd he hTyped hTyped')
  | delete x => exact hSingle (Delete.compile_agree hd he hTyped hTyped')
  | select q => exact hSingle (Query.compile_agree hd he hTyped hTyped')
  | count q => exact hSingle (Query.countRequest_agree hd he hTyped hTyped')

/-- A builder fails in every dialect, and with the same failure, or its requests are read alike in
all of them, one by one. -/
theorem read_alike (hTyped : ∀ d ∈ Dialect.provided, s.table.Typed d) (hPlain : s.upserts = false) :
    (∃ e, ∀ d ∈ Dialect.provided, (s.inDialect d).compile = .error e) ∨
      ∃ readings, ∀ d ∈ Dialect.provided, ∃ requests,
        (s.inDialect d).compile = .ok requests ∧ requests.map d.reading = readings := by
  have hGeneric : Dialect.generic ∈ Dialect.provided := List.mem_cons_self ..
  have hSame (d : Dialect) (hd : d ∈ Dialect.provided) :=
    compile_agree hd hGeneric (hTyped d hd) (hTyped _ hGeneric) hPlain
  cases hCompile : (s.inDialect .generic).compile with
  | error e =>
      refine .inl ⟨e, fun d hd => ?_⟩
      have h := hSame d hd
      rw [hCompile] at h
      cases hOther : (s.inDialect d).compile with
      | error e' =>
          rw [hOther] at h
          simpa [Except.map] using h
      | ok requests =>
          rw [hOther] at h
          cases h
  | ok requests =>
      refine .inr ⟨requests.map Dialect.generic.reading, fun d hd => ?_⟩
      have h := hSame d hd
      rw [hCompile] at h
      exact Result.map_eq_ok_iff.mp h

/-- Quotes, a dot and the word of a window in names, and a window that skips rows. -/
theorem read_alike_hostile :
    let t : Table := { name := "limit", schema := "a.\"b\x60",
                       columns := [.ofTy "LIMIT 1" .text, .ofTy "order" .boolean] }
    let q : Query :=
      { table := t, dialect := .generic, columns := ["order"],
        filter := some (.any [.compare "limit 1" .isIn [.text none, .text (some "LIMIT")],
          .compare "order" .equal [.null]]),
        order := [("LIMIT 1", .descending)], window := some (.page 2 5) }
    (∀ d ∈ Dialect.provided, t.Typed d) ∧
      (∀ d ∈ Dialect.provided, ∃ requests, ((select q).inDialect d).compile = .ok requests) ∧
      ((∃ e, ∀ d ∈ Dialect.provided, ((select q).inDialect d).compile = .error e) ∨
        ∃ readings, ∀ d ∈ Dialect.provided, ∃ requests,
          ((select q).inDialect d).compile = .ok requests ∧ requests.map d.reading = readings) := by
  intro t q
  have hTyped : ∀ d ∈ Dialect.provided, t.Typed d := by
    intro d hd c hc
    simp only [Dialect.provided, List.mem_cons, List.not_mem_nil, or_false] at hd
    simp only [t, List.mem_cons, List.not_mem_nil, or_false] at hc
    rcases hd with rfl | rfl | rfl <;> rcases hc with rfl | rfl <;> exact ⟨_, rfl⟩
  refine ⟨hTyped, ?_, read_alike hTyped rfl⟩
  intro d hd
  simp only [Dialect.provided, List.mem_cons, List.not_mem_nil, or_false] at hd
  rcases hd with rfl | rfl | rfl <;> exact ⟨_, rfl⟩

end Statement

end SqlMapper
