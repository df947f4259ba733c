import SqlMapper.Proofs.Statement.Placeholder
import SqlMapper.Proofs.Statement.Wording

/-! The window clause of a query in the text that is sent. Nothing in front of it reads as the word
that begins it, whatever names and values the query is about, so what a database takes for the window
is what was asked for. -/
namespace SqlMapper

open Sql (Carries)

namespace Dialect

theorem letters_append (d : Dialect) (position : Nat) (a b : Sql) :
    d.letters position (a ++ b) =
      d.letters position a ++ d.letters (position + a.params.length) b := by
  induction a generalizing position with
  | nil => rfl
  | cons piece a ih =>
      cases piece with
      | bind v t => simp [letters, ih, Nat.add_assoc, Nat.add_comm 1]
      | text | name => simp [letters, ih]

/-- Text without parameters is rendered alike wherever it stands. -/
theorem letters_of_fixed (d : Dialect) {sql : Sql} (hFixed : sql.params = [])
    (position position' : Nat) : d.letters position sql = d.letters position' sql := by
  induction sql with
  | nil => rfl
  | cons piece sql ih =>
      cases piece with
      | bind v t => simp at hFixed
      | text | name => exact congrArg (List.cons _) (ih hFixed)

/-- Text without parameters changes no placeholder of what stands around it. -/
theorem render_append (d : Dialect) {a b : Sql} (hFixed : a.params = [] ∨ b.params = []) :
    d.render (a ++ b) = d.render a ++ d.render b := by
  rw [render, letters_append, String.join_append]
  rcases hFixed with hFixed | hFixed
  · rw [hFixed]
    rfl
  · rw [d.letters_of_fixed hFixed _ 1]
    rfl

end Dialect

namespace Sql

theorem tokens_append (d : Dialect) (position : Nat) (a b : Sql) :
    (a ++ b).tokens d position = a.tokens d position ++ b.tokens d (position + a.params.length) := by
  induction a generalizing position with
  | nil => rfl
  | cons piece a ih =>
      cases piece with
      | bind v t => simp [tokens, Piece.next, ih, Nat.add_assoc, Nat.add_comm 1]
      | text | name => simp [tokens, Piece.next, ih]

end Sql

/-- A part that mentions no value binds none. -/
theorem Sql.Carries.params_eq_nil {d : Dialect} {t : Table} {sql : Sql} (h : Carries d t [] sql) :
    sql.params = [] :=
  List.forall₂_nil_left_iff.mp h.params

/-! ### Text without a window -/

/-- The piece does not read as the beginning of a window clause. -/
def Piece.isWindowless (d : Dialect) : Piece → Bool
  | .text s => (d.tokens s).all (· != .word "LIMIT")
  | _ => true

/-- No piece reads as the beginning of a window clause. -/
def Sql.Windowless (d : Dialect) (sql : Sql) : Prop := ∀ p ∈ sql, p.isWindowless d = true

namespace Sql

variable {d : Dialect} {sql : Sql}

/-- Text of the vocabulary opens no window. -/
theorem Worded.windowless (hd : d ∈ Dialect.provided) (h : sql.Worded) : sql.Windowless d := by
  intro p hp
  cases p with
  | name | bind => rfl
  | text s =>
      have hs := h s hp
      rw [Piece.isWindowless, tokens_eq_of_mem_vocabulary s hs d hd, List.all_eq_true]
      exact fun t ht => bne_iff_ne.mpr (ne_limit_of_mem_vocabulary s hs t ht)

/-- What opens no window has no `LIMIT` among its tokens. -/
theorem Windowless.word_not_mem (h : sql.Windowless d) (position : Nat) :
    ∀ t ∈ sql.tokens d position, (t != .word "LIMIT") = true := by
  intro t ht
  obtain ⟨p, hp, position', hMem⟩ := exists_piece_of_mem_tokens ht
  have hPiece := h p hp
  cases p with
  | text s => exact List.all_eq_true.mp hPiece t hMem
  | name | bind =>
      obtain rfl := List.mem_singleton.mp hMem
      rfl

end Sql

/-! ### Text with a window -/

namespace Query

variable {d : Dialect} (hd : d ∈ Dialect.provided)
include hd

/-- The tokens of a window clause, none where there is no window. -/
theorem tokens_windowSql (position : Nat) (window : Option (Nat × Nat)) :
    (windowSql d window).tokens d position =
      window.elim [] fun (offset, n) => d.windowClause offset n := by
  cases window with
  | none => rfl
  | some bounds =>
      have hLine : ∀ d ∈ Dialect.provided, d.tokens "\n" = [] := by decide
      simp [windowSql, Sql.tokens, Piece.tokens, hLine d hd, Dialect.tokens_windowText hd]

/-- A statement is cut in two where its window begins. -/
theorem split_windowed {sql : Sql} (hSpaced : sql.Spaced) (hPlain : sql.Windowless d)
    (window : Option (Nat × Nat)) :
    d.body (d.render (sql ++ windowSql d window)) = sql.tokens d 1 ∧
      d.windowTokens (d.render (sql ++ windowSql d window)) =
        window.elim [] fun (offset, n) => d.windowClause offset n := by
  have hWhole : d.tokens (d.render (sql ++ windowSql d window)) = sql.tokens d 1 ++
      window.elim [] fun (offset, n) => d.windowClause offset n := by
    rw [Dialect.render, Sql.tokens_letters (quote_mem_of_provided hd), Sql.tokens_append,
      tokens_windowSql hd]
    cases window with
    | none => rwa [windowSql, List.append_nil]
    | some bounds =>
        exact hSpaced.linked rfl (.single (d.isClear_windowText bounds.1 bounds.2))
  have hNone := hPlain.word_not_mem 1
  rw [Dialect.body, Dialect.windowTokens, hWhole, List.takeWhile_append_of_pos hNone,
    List.dropWhile_append_of_pos hNone]
  cases window <;> simp [Dialect.windowClause]

end Query

/-! ### Queries -/

namespace Query

/-- What a query is put together from, apart from its window. -/
structure Parts (q : Query) (columns : List Column) (clause : Sql)
    (keys : List (Column × Direction)) : Prop where
  columns : q.table.columnsOrAll .query q.columns = .ok columns
  clause : Condition.clause q.dialect q.table .query (Condition.effective q.filter) = .ok clause
  keys : sortKeys q.table q.order = .ok keys

/-- The columns that are returned and the table that they are read from. -/
def sourceSql (t : Table) (columns : List Column) : Sql :=
  .text "SELECT " :: Column.nameList columns ++ .text "\nFROM " :: t.reference

/-- The text of a query without its window clause. -/
def bodySql (t : Table) (columns : List Column) (clause : Sql) (keys : List (Column × Direction)) :
    Sql :=
  sourceSql t columns ++ clause ++ orderSql keys

theorem carries_sourceSql (d : Dialect) (t : Table) (columns : List Column) :
    Carries d t [] (sourceSql t columns) := by
  have hNames : Carries d t [] (.text "SELECT " :: Column.nameList columns) :=
    .text_cons rfl rfl (Column.carries_nameList columns)
  exact hNames.linked (s := "\nFROM ") rfl Table.carries_reference

variable {q : Query} {columns : List Column} {clause : Sql} {keys : List (Column × Direction)}

/-- A query that compiles is its body and its window. -/
theorem exists_parts {r : Request} (h : q.compile = .ok r) :
    ∃ columns clause keys, q.Parts columns clause keys := by
  simp only [Query.compile, Result.bind_eq_ok_iff] at h
  obtain ⟨columns, hColumns, keys, hKeys, window, hWindow, clause, hClause, -⟩ := h
  exact ⟨columns, clause, keys, hColumns, hClause, hKeys⟩

namespace Parts

variable (h : q.Parts columns clause keys)
include h

/-- Nothing but the window can fail. -/
theorem compile : q.compile = q.bounds.map fun window =>
    q.dialect.request (bodySql q.table columns clause keys ++ windowSql q.dialect window) := by
  rw [Query.compile, h.columns, h.keys, h.clause]
  cases q.bounds with
  | error f => rfl
  | ok window =>
      rw [bodySql, sourceSql]
      rfl

/-- The pieces of the body of a query stand apart. -/
theorem spaced_body : (bodySql q.table columns clause keys).Spaced := by
  have hFilter := (carries_sourceSql q.dialect q.table columns).followed
    (Condition.follows_clause h.clause)
  exact (hFilter.followed (follows_orderSql keys)).spaced

/-- The body of a query is written in the vocabulary. -/
theorem worded_body : (bodySql q.table columns clause keys).Worded := by
  have hNames := (Column.worded_nameList columns).text_cons (s := "SELECT ") (by decide)
  have hSource := hNames.linked (s := "\nFROM ") (by decide) q.table.worded_reference
  exact (hSource.append (Condition.worded_clause h.clause)).append (worded_orderSql keys)

end Parts

end Query

end SqlMapper
