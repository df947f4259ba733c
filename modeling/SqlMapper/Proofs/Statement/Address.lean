import SqlMapper.Proofs.Catalog.Placement
import SqlMapper.Proofs.Statement.Window

/-! The table that a statement addresses, as a database reads it. The text of a reference says the
schema and the name of its table, quotes and dots in them or not, so statements on two tables of one
database address one and the same only if neither table names a schema. -/
namespace SqlMapper

/-! ### Reading -/

/-- The name of a table, behind that of its schema if this is named. -/
abbrev Path := Option String × String

def Token.leads : Token Slot → Bool
  | .word "INTO" | .word "UPDATE" | .word "FROM" => true
  | _ => false

def Path.read : List (Token Slot) → Option Path
  | .name schema :: .mark "." :: .name table :: _ => some (some schema, table)
  | .name table :: _ => some (none, table)
  | _ => none

/-- The table that a statement addresses. -/
def Dialect.addressed (d : Dialect) (sql : String) : Option Path :=
  Path.read ((d.tokens sql).dropWhile fun t => !t.leads).tail

example : Dialect.mysql.addressed "SELECT \x60from\x60 FROM \x60a.b\x60.\x60into\x60 WHERE c = ?" =
    some (some "a.b", "into") := by decide +kernel

namespace Table

def path (t : Table) : Path := (if t.schema.isEmpty then none else some t.schema, t.name)

/-- Tables are addressed alike exactly when schema and name are the same. -/
theorem path_eq_iff {t u : Table} : t.path = u.path ↔ t.schema = u.schema ∧ t.name = u.name := by
  rw [path, path, Prod.mk.injEq]
  refine and_congr_left fun _ => ?_
  cases ht : t.schema.isEmpty <;> cases hu : u.schema.isEmpty <;> simp_all

variable {d : Dialect} (hd : d ∈ Dialect.provided)
include hd

/-- The reference of a table is read as its path, as long as no further name follows. -/
theorem read_reference (t : Table) (position : Nat) {rest : List (Token Slot)}
    (hRest : rest.head? ≠ some (.mark ".")) :
    Path.read (t.reference.tokens d position ++ rest) = some t.path := by
  have hPoint : ∀ d ∈ Dialect.provided, d.tokens "." = [.mark "."] := by decide
  rw [reference, path]
  split
  · change Path.read (.name t.name :: rest) = _
    unfold Path.read
    split
    next hEq =>
      simp only [List.cons.injEq] at hEq
      simp [hEq.2] at hRest
    next hEq =>
      simp only [List.cons.injEq, Token.name.injEq] at hEq
      rw [hEq.1]
    next hNone => exact absurd rfl (hNone t.name rest)
  · simp [Sql.tokens, Piece.tokens, hPoint d hd, Path.read]

/-- From the text of a reference its table can be told. -/
theorem render_reference_eq_iff {t u : Table} :
    d.render t.reference = d.render u.reference ↔ t.path = u.path := by
  have hRead (t : Table) : Path.read (d.tokens (d.render t.reference)) = some t.path := by
    have hSpaced := (carries_reference (d := d) (t := t)).spaced
    have h : Path.read (t.reference.tokens d 1 ++ []) = some t.path :=
      t.read_reference hd 1 (by simp)
    rwa [List.append_nil, ← Sql.tokens_letters (quote_mem_of_provided hd) hSpaced] at h
  constructor
  · intro h
    have hSame := congrArg (fun s => Path.read (d.tokens s)) h
    simp only [hRead] at hSame
    exact Option.some.inj hSame
  · intro h
    obtain ⟨hSchema, hName⟩ := path_eq_iff.mp h
    rw [reference, reference, hSchema, hName]

end Table

/-! ### Texts around a reference -/

namespace Sql

/-- Of all words only the last one has a table behind it. -/
def Leads (d : Dialect) (front : Sql) : Prop :=
  ((front.tokens d 1).dropWhile fun t => !t.leads).length = 1

/-- Behind a name the part does not go on with a point. -/
def Ends (d : Dialect) (rest : Sql) : Prop :=
  ∀ position, (rest.tokens d position).head? ≠ some (.mark ".")

/-- The table is the first that the text names. -/
def Addresses (d : Dialect) (t : Table) (sql : Sql) : Prop :=
  ∃ front rest, sql = front ++ t.reference ++ rest ∧ front.Leads d ∧ front.params = [] ∧ rest.Ends d

variable {d : Dialect} {t : Table} {a b : Sql}

namespace Addresses

variable {sql : Sql}

/-- The address read from a statement is that of its table. -/
theorem addressed (hd : d ∈ Dialect.provided) (h : sql.Addresses d t) (hSpaced : sql.Spaced) :
    d.addressed (d.render sql) = some t.path := by
  obtain ⟨front, rest, rfl, hLeads, -, hEnds⟩ := h
  obtain ⟨word, hWord⟩ := List.length_eq_one_iff.mp hLeads
  rw [Dialect.addressed, Dialect.render, tokens_letters (quote_mem_of_provided hd) hSpaced,
    tokens_append, tokens_append, List.append_assoc, List.dropWhile_append, hWord]
  exact t.read_reference hd _ (hEnds _)

theorem exists_render (h : sql.Addresses d t) :
    ∃ before after, d.render sql = before ++ d.render t.reference ++ after := by
  obtain ⟨front, rest, rfl, -, hFront, -⟩ := h
  have hReference : t.reference.params = [] := (Table.carries_reference (d := d)).params_eq_nil
  exact ⟨d.render front, d.render rest, by
    rw [d.render_append (.inl (by simp [hFront, hReference])), d.render_append (.inl hFront)]⟩

end Addresses

theorem ends_nil : Ends d [] := by
  intro position
  simp [tokens]

theorem Ends.append (ha : a.Ends d) (hb : b.Ends d) : (a ++ b).Ends d := by
  intro position
  rw [tokens_append, List.head?_append]
  cases hFirst : (a.tokens d position).head? with
  | none => exact hb _
  | some first => exact fun h => ha position (hFirst.trans h)

/-- The texts behind tables. -/
def endings : List String := [" (", "\nSET ", "\nWHERE ", "\nORDER BY "]

theorem ends_text_cons (hd : d ∈ Dialect.provided) {s : String} (hs : s ∈ endings) (rest : Sql) :
    Ends d (.text s :: rest) := by
  have hFirst : ∀ s ∈ endings, ∀ d ∈ Dialect.provided,
      (d.tokens s).head?.any (· != .mark ".") = true := by decide +kernel
  obtain ⟨first, hHead, hPoint⟩ := (Option.any_eq_true ..).mp (hFirst s hs d hd)
  intro position
  rw [tokens, Piece.tokens, List.head?_append, hHead]
  simpa using hPoint

/-- The words that begin statements on one table. -/
def beginnings : List String :=
  ["INSERT INTO ", "UPDATE ", "DELETE FROM ", "SELECT COUNT(*) AS total\nFROM "]

theorem leads_text (hd : d ∈ Dialect.provided) {s : String} (hs : s ∈ beginnings) :
    Leads d [.text s] := by
  have hLast : ∀ s ∈ beginnings, ∀ d ∈ Dialect.provided,
      ((d.tokens s).dropWhile fun t => !t.leads).length = 1 := by decide +kernel
  rw [Leads, tokens, Piece.tokens, tokens, List.append_nil]
  exact hLast s hs d hd

/-- No name of a column has a table behind it. -/
theorem leads_columns (hd : d ∈ Dialect.provided) (columns : List Column) :
    Leads d (.text "SELECT " :: Column.nameList columns ++ [.text "\nFROM "]) := by
  have hWords : ∀ d ∈ Dialect.provided, d.tokens "SELECT " = [.word "SELECT"] ∧
      d.tokens ", " = [.mark ","] ∧ d.tokens "\nFROM " = [.word "FROM"] := by decide +kernel
  obtain ⟨hSelect, hComma, hFrom⟩ := hWords d hd
  have hColumns : ∀ t ∈ tokens d 1 (.text "SELECT " :: Column.nameList columns),
      (!t.leads) = true := by
    intro t ht
    obtain ⟨p, hp, position, hMem⟩ := exists_piece_of_mem_tokens ht
    rcases List.mem_cons.mp hp with rfl | hp
    · rw [Piece.tokens, hSelect, List.mem_singleton] at hMem
      rw [hMem]
      rfl
    · rcases mem_joined hp with rfl | ⟨part, hPart, hp⟩
      · rw [Piece.tokens, hComma, List.mem_singleton] at hMem
        rw [hMem]
        rfl
      · obtain ⟨c, -, rfl⟩ := List.mem_map.mp hPart
        obtain rfl := List.mem_singleton.mp hp
        obtain rfl := List.mem_singleton.mp hMem
        rfl
  rw [Leads, tokens_append, List.dropWhile_append_of_pos hColumns, tokens, Piece.tokens, hFrom]
  rfl

end Sql

open Sql (Ends Addresses)

/-! ### Statements -/

variable {d : Dialect} {t : Table} {operation : Operation}

/-- Behind the reference a condition begins with no further name. -/
theorem Condition.ends_clause (hd : d ∈ Dialect.provided) {filter : Option Condition} {sql : Sql}
    (h : clause d t operation filter = .ok sql) : sql.Ends d := by
  cases filter with
  | none =>
      obtain rfl := Except.ok.inj h
      exact Sql.ends_nil
  | some c =>
      rw [clause, Result.bind_eq_ok_iff] at h
      obtain ⟨condition, -, hWhere⟩ := h
      obtain rfl := Except.ok.inj hWhere
      exact Sql.ends_text_cons hd (by decide) condition

/-- A statement that opens with a table and a condition addresses the table. -/
theorem Table.addresses_filtered (hd : d ∈ Dialect.provided) {s : String}
    (hs : s ∈ Sql.beginnings) {filter : Option Condition} {clause : Sql}
    (h : Condition.clause d t operation filter = .ok clause) :
    Addresses d t (.text s :: t.reference ++ clause) :=
  ⟨[.text s], clause, rfl, Sql.leads_text hd hs, rfl, Condition.ends_clause hd h⟩

theorem Table.addresses_between (hd : d ∈ Dialect.provided) {s s' : String}
    (hs : s ∈ Sql.beginnings) (hs' : s' ∈ Sql.endings) (rest : Sql) :
    Addresses d t (.text s :: t.reference ++ .text s' :: rest) :=
  ⟨[.text s], _, rfl, Sql.leads_text hd hs, rfl, Sql.ends_text_cons hd hs' rest⟩

/-- An insertion addresses its table. -/
theorem Insert.addresses_rowsSql (hd : d ∈ Dialect.provided) (columns : List Column)
    (types : List String) (rows : List (List Value)) (clause : Sql) :
    Addresses d t (rowsSql t columns types rows ++ clause) := by
  rw [rowsSql, List.append_assoc, List.append_assoc]
  exact Table.addresses_between hd (by decide) (by decide) _

/-- An update addresses its table. -/
theorem Update.addresses_sql (hd : d ∈ Dialect.provided) (parts : List Sql) (clause : Sql) :
    Addresses d t
      (.text "UPDATE " :: t.reference ++ .text "\nSET " :: Sql.joined ", " parts ++ clause) := by
  rw [List.append_assoc]
  exact Table.addresses_between hd (by decide) (by decide) _

namespace Query

theorem ends_orderSql (hd : d ∈ Dialect.provided) (keys : List (Column × Direction)) :
    Ends d (orderSql keys) := by
  rw [orderSql]
  split
  · exact Sql.ends_nil
  · exact Sql.ends_text_cons hd (by decide) _

theorem ends_windowSql (hd : d ∈ Dialect.provided) (window : Option (Nat × Nat)) :
    Ends d (windowSql d window) := by
  intro position
  rw [tokens_windowSql hd]
  cases window <;> simp [Dialect.windowClause]

/-- A query addresses its table. -/
theorem addresses_sql (hd : d ∈ Dialect.provided) (columns : List Column)
    {filter : Option Condition} {clause : Sql}
    (h : Condition.clause d t operation filter = .ok clause) (keys : List (Column × Direction))
    (window : Option (Nat × Nat)) :
    Addresses d t (.text "SELECT " :: Column.nameList columns ++ .text "\nFROM " :: t.reference ++
      clause ++ orderSql keys ++ windowSql d window) := by
  have hNames : (Column.nameList columns).params = [] :=
    (Column.carries_nameList (d := d) (t := t) columns).params_eq_nil
  refine ⟨.text "SELECT " :: Column.nameList columns ++ [.text "\nFROM "],
    clause ++ (orderSql keys ++ windowSql d window), ?_, Sql.leads_columns hd columns,
    by simp [hNames], (Condition.ends_clause hd h).append
      ((ends_orderSql hd keys).append (ends_windowSql hd window))⟩
  simp only [List.append_assoc, List.cons_append, List.nil_append]

end Query

namespace Statement

/-- Each request of a statement is the text of one that addresses the table of its builder. -/
theorem addresses_of_compile {s : Statement} (hd : s.dialect ∈ Dialect.provided)
    {requests : List Request} (h : s.compile = .ok requests) {r : Request} (hr : r ∈ requests) :
    ∃ sql, r = s.dialect.request sql ∧ sql.Addresses s.dialect s.table ∧ sql.Spaced := by
  have hSingle {x : Result Request} (h : x.map ([·]) = .ok requests) : x = .ok r := by
    obtain ⟨only, hOnly, hRequests⟩ := Result.map_eq_ok_iff.mp h
    rw [← hRequests] at hr
    rwa [List.mem_singleton.mp hr]
  cases s with
  | insert i =>
      obtain ⟨columns, types, clause, -, hMisfit, hTypes, hClause, rfl⟩ :=
        Insert.compileUpsert_eq_ok (Insert.compileUpsert_of_compile h)
      obtain ⟨batch, hBatch, rfl⟩ := List.mem_map.mp hr
      exact ⟨_, rfl, Insert.addresses_rowsSql hd columns types batch clause,
        (Insert.carries_batch hMisfit hTypes hClause hBatch).spaced⟩
  | update u =>
      have hCompile := hSingle h
      simp only [Update.compile, Result.guard_eq_ok_iff, Result.bind_eq_ok_iff] at hCompile
      obtain ⟨-, -, columns, hColumns, parts, hParts, clause, hClause, hRequest⟩ := hCompile
      exact ⟨_, (Except.ok.inj hRequest).symm, Update.addresses_sql hd parts clause,
        (Update.carries_sql hColumns hParts hClause).spaced⟩
  | delete x =>
      have hCompile := hSingle h
      simp only [Delete.compile, Result.guard_eq_ok_iff, Result.bind_eq_ok_iff] at hCompile
      obtain ⟨-, clause, hClause, hRequest⟩ := hCompile
      exact ⟨_, (Except.ok.inj hRequest).symm, Table.addresses_filtered hd (by decide) hClause,
        (Table.carries_filtered rfl rfl hClause).spaced⟩
  | select q =>
      have hCompile := hSingle h
      simp only [Query.compile, Result.bind_eq_ok_iff] at hCompile
      obtain ⟨columns, -, keys, -, window, -, clause, hClause, hRequest⟩ := hCompile
      exact ⟨_, (Except.ok.inj hRequest).symm, Query.addresses_sql hd columns hClause keys window,
        (Query.carries_sql columns keys window hClause).spaced⟩
  | count q =>
      have hCompile := hSingle h
      simp only [Query.countRequest, Result.bind_eq_ok_iff] at hCompile
      obtain ⟨clause, hClause, hRequest⟩ := hCompile
      exact ⟨_, (Except.ok.inj hRequest).symm, Table.addresses_filtered hd (by decide) hClause,
        (Table.carries_filtered rfl rfl hClause).spaced⟩

end Statement

/-! ### Tables of one database -/

namespace Database

variable {db : Database} {u : Table} {schema other name another : String}

/-- Tables in different slots are named alike only where neither names a schema. -/
theorem path_eq_iff_of_apart (h : db.Reached) (ht : db.slot? schema name = some t)
    (hu : db.slot? other another = some u)
    (hApart : schema ≠ other ∨ Text.lowerCase name ≠ Text.lowerCase another) :
    t.path = u.path ↔ t.schema = "" ∧ u.schema = "" ∧ t.name = u.name := by
  rw [Table.path_eq_iff]
  constructor
  · rintro ⟨hSchema, hName⟩
    by_cases hEmpty : t.schema = ""
    · exact ⟨hEmpty, hSchema ▸ hEmpty, hName⟩
    · -- Both name a schema and lie in it, so their slots differ in the names.
      have hFirst : t.schema = schema := (h.filed _ _ _ ht).resolve_left hEmpty
      have hSecond : u.schema = other := (h.filed _ _ _ hu).resolve_left (hSchema ▸ hEmpty)
      have hSame : Text.lowerCase name = Text.lowerCase another := by
        rw [← (h.tidy _ _ _ ht).1, ← (h.tidy _ _ _ hu).1, hName]
      exact absurd hSame (hApart.resolve_left fun hDiffer =>
        hDiffer (hFirst.symm.trans (hSchema.trans hSecond)))
  · rintro ⟨hFirst, hSecond, hName⟩
    exact ⟨hFirst.trans hSecond.symm, hName⟩

/-- Tables in different slots have different references, and no statement on one of them addresses
the other, in any dialect, unless they have one name and neither names a schema. -/
theorem addressed_apart (h : db.Reached) (hd : d ∈ Dialect.provided)
    (ht : db.slot? schema name = some t) (hu : db.slot? other another = some u)
    (hApart : schema ≠ other ∨ Text.lowerCase name ≠ Text.lowerCase another) :
    (d.render t.reference = d.render u.reference ↔
        t.schema = "" ∧ u.schema = "" ∧ t.name = u.name) ∧
      ∀ s : Statement, s.table = t → s.dialect = d → ∀ requests, s.compile = .ok requests →
        ∀ r ∈ requests, (∃ before after, r.sql = before ++ d.render t.reference ++ after) ∧
          (d.addressed r.sql = some u.path ↔
            t.schema = "" ∧ u.schema = "" ∧ t.name = u.name) := by
  have hPaths := path_eq_iff_of_apart h ht hu hApart
  refine ⟨(Table.render_reference_eq_iff hd).trans hPaths, ?_⟩
  rintro s rfl rfl requests hCompile r hr
  obtain ⟨sql, rfl, hAddresses, hSpaced⟩ := Statement.addresses_of_compile hd hCompile hr
  refine ⟨hAddresses.exists_render, ?_⟩
  change s.dialect.addressed (s.dialect.render sql) = some u.path ↔ _
  rw [hAddresses.addressed hd hSpaced, Option.some_inj, hPaths]

/-- Schemas and names with dots. -/
theorem addressed_apart_dotted :
    let t : Table := { name := "b.c", schema := "a", columns := [.ofTy "x" .text] }
    let u : Table := { name := "c", schema := "a.b", columns := [.ofTy "x" .text] }
    let d := Dialect.mysql
    let db := ((Database.new d).put t).put u
    db.Reached ∧ db.slot? "a" "B.C" = some t ∧ db.slot? "a.b" "C" = some u ∧
      (∃ r, (Statement.delete { table := t, dialect := d, unconditional := true }).compile =
        .ok [r]) ∧
      (d.render t.reference = d.render u.reference ↔
        t.schema = "" ∧ u.schema = "" ∧ t.name = u.name) ∧
      ∀ s : Statement, s.table = t → s.dialect = d → ∀ requests, s.compile = .ok requests →
        ∀ r ∈ requests, (∃ before after, r.sql = before ++ d.render t.reference ++ after) ∧
          (d.addressed r.sql = some u.path ↔
            t.schema = "" ∧ u.schema = "" ∧ t.name = u.name) := by
  intro t u d db
  have hReached : db.Reached := .addTable (t := u) (.addTable (t := t) (.new d) rfl) rfl
  have hFirst : db.slot? "a" "B.C" = some t := by
    dsimp +zetaDelta only
    rfl
  have hSecond : db.slot? "a.b" "C" = some u := by
    dsimp +zetaDelta only
    rfl
  exact ⟨hReached, hFirst, hSecond, ⟨_, rfl⟩,
    addressed_apart hReached (by simp [Dialect.provided, d]) hFirst hSecond (.inl (by decide))⟩

/-- Two tables of one name, neither of which names a schema, were added while different schemas were
current. An update of the one that is found behind its schema is sent to the other. -/
theorem addressed_alike :
    let audited : Table := { name := "t", columns := [.ofTy "a" .text] }
    let other : Table := { name := "t", columns := [.ofTy "a" .text, .ofTy "b" .text] }
    let update : Update :=
      { table := audited, dialect := .generic, assignments := [("a", .text (some "x"))],
        unconditional := true }
    ∃ added db r, ((Database.new .generic).setCurrentSchema "audit").addTable audited = .ok added ∧
      (added.setCurrentSchema "").addTable other = .ok db ∧ db.Reached ∧
      db.table "audit.t" = .ok audited ∧ db.table "t" = .ok other ∧
      db.slot? "audit" "t" = some audited ∧ db.slot? "" "t" = some other ∧
      (∀ d ∈ Dialect.provided, d.render audited.reference = d.render other.reference) ∧
      update.compile = .ok r ∧ r.sql = "UPDATE t\nSET a = $1" ∧
      Dialect.generic.addressed r.sql = some other.path := by
  intro audited other update
  have hAdded : ∃ added db, ((Database.new .generic).setCurrentSchema "audit").addTable audited =
        .ok added ∧
      (added.setCurrentSchema "").addTable other = .ok db ∧
      db.table "audit.t" = .ok audited ∧ db.table "t" = .ok other ∧
      db.slot? "audit" "t" = some audited ∧ db.slot? "" "t" = some other := by
    dsimp +zetaDelta only
    exact ⟨_, _, rfl, rfl, rfl, rfl, rfl, rfl⟩
  obtain ⟨added, db, hFirst, hSecond, hAudited, hOther, hSlot, hCurrent⟩ := hAdded
  have hAdded : added.Reached := .addTable (.setCurrentSchema (.new .generic) "audit") hFirst
  have hReached : db.Reached := .addTable (.setCurrentSchema hAdded "") hSecond
  have hCompile : ∃ r, update.compile = .ok r ∧ r.sql = "UPDATE t\nSET a = $1" := by
    dsimp +zetaDelta only
    exact ⟨_, rfl, by decide⟩
  obtain ⟨r, hCompile, hText⟩ := hCompile
  have hAddressed : Dialect.generic.addressed r.sql = some other.path := by
    rw [hText]
    decide
  exact ⟨added, db, r, hFirst, hSecond, hReached, hAudited, hOther, hSlot, hCurrent,
    fun _ _ => rfl, hCompile, hText, hAddressed⟩

end Database

end SqlMapper
