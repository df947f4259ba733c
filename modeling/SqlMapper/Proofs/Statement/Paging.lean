import Mathlib.Algebra.BigOperators.Group.List.Basic
import Mathlib.Algebra.GroupWithZero.Nat
import SqlMapper.Exchange.Reply
import SqlMapper.Proofs.Statement.Window

/-! Pages of a result. The clause that a page writes is read back as a window of the result, and
windows of one size, put one behind another, are the result. -/
namespace SqlMapper

/-! ### Rows -/

/-- The rows that a window leaves of a result. -/
def Window.rows {α : Type} : Window → List α → List α
  | page index size, rows => rows.extract (index * size) ((index + 1) * size)
  | limit n, rows => rows.take n

/-- The rows that are left of a result, all of them where there is no window. -/
def Window.rowsOf {α : Type} (window : Option Window) (rows : List α) : List α :=
  window.elim rows (·.rows rows)

namespace Window

variable {α : Type} {size : Nat}

/-- A page shows its size of rows behind the pages before it. -/
theorem rows_page (index size : Nat) (rows : List α) :
    (page index size).rows rows = (rows.drop (index * size)).take size := by
  rw [Window.rows, List.extract_eq_take_drop, Nat.add_mul, Nat.one_mul, Nat.add_sub_cancel_left]

/-- A row is on the page that its place in the result belongs to. -/
theorem div_of_mem_rows_page {index : Nat} {rows : List α} {a : α} {place : Nat}
    (h : (a, place) ∈ (page index size).rows rows.zipIdx) : place / size = index := by
  rw [rows_page, List.mem_iff_getElem?] at h
  obtain ⟨k, hk⟩ := h
  rw [List.getElem?_take, Option.ite_none_right_eq_some, List.getElem?_drop, List.getElem?_zipIdx,
    Option.map_eq_some_iff] at hk
  obtain ⟨hSize, b, -, hPair⟩ := hk
  obtain rfl : 0 + (index * size + k) = place := congrArg Prod.snd hPair
  rw [Nat.zero_add, Nat.mul_comm, Nat.mul_add_div (by omega), Nat.div_eq_of_lt hSize, Nat.add_zero]

/-- The first pages, put one behind another. -/
theorem flatMap_rows_page (size n : Nat) (rows : List α) :
    (List.range n).flatMap (fun index => (page index size).rows rows) = rows.take (n * size) := by
  induction n with
  | zero => simp
  | succ n ih =>
      rw [List.range_succ, List.flatMap_append, List.flatMap_singleton, ih, rows_page,
        Nat.add_mul, Nat.one_mul, List.take_add]

/-- No place of the result is on two pages. -/
theorem disjoint_rows_page {i j : Nat} (hDifferent : i ≠ j) (rows : List α) :
    ((page i size).rows rows.zipIdx).Disjoint ((page j size).rows rows.zipIdx) := by
  rintro ⟨a, place⟩ hi hj
  exact hDifferent ((div_of_mem_rows_page hi).symm.trans (div_of_mem_rows_page hj))

end Window

/-! ### Requests -/

/-- The request is another one, which has no window, with a window clause behind it: it asks for some
of the rows that the other one returns. -/
structure Request.Shows (d : Dialect) (r whole : Request)
    (part : ∀ ⦃α : Type⦄, List α → List α) : Prop where
  body : d.body r.sql = d.tokens whole.sql
  params : r.params = whole.params
  shown : ∀ ⦃α : Type⦄ (rows : List α), d.shown r.sql rows = some (part rows)

theorem Request.Shows.congr {d : Dialect} {r whole : Request}
    {part part' : ∀ ⦃α : Type⦄, List α → List α}
    (h : r.Shows d whole part) (hSame : ∀ ⦃α : Type⦄ (rows : List α), part rows = part' rows) :
    r.Shows d whole part' :=
  ⟨h.body, h.params, fun _ rows => hSame rows ▸ h.shown rows⟩

namespace Query

variable {q : Query} {columns : List Column} {clause : Sql} {keys : List (Column × Direction)}

/-- The rows within the bounds of a window. -/
def within {α : Type} (window : Option (Nat × Nat)) (rows : List α) : List α :=
  window.elim rows fun (offset, n) => (rows.drop offset).take n

namespace Parts

variable (h : q.Parts columns clause keys) (hd : q.dialect ∈ Dialect.provided)
include h hd

/-- The statement of a query returns the rows within the bounds, of those that it would return
without any. -/
theorem shows (window : Option (Nat × Nat)) :
    Request.Shows q.dialect
      (q.dialect.request (bodySql q.table columns clause keys ++ windowSql q.dialect window))
      (q.dialect.request (bodySql q.table columns clause keys)) fun _ => within window := by
  obtain ⟨hBody, hClause⟩ := split_windowed hd h.spaced_body (h.worded_body.windowless hd) window
  refine ⟨?_, ?_, fun α rows => ?_⟩
  · rw [Dialect.request, Dialect.request, hBody, Dialect.render,
      Sql.tokens_letters (quote_mem_of_provided hd) h.spaced_body]
  · cases window <;> simp [Dialect.request, windowSql]
  · rw [Dialect.shown, Dialect.request, hClause]
    cases window with
    | none => rfl
    | some bounds =>
        have hRead := Dialect.read_windowClause hd bounds.1 bounds.2
        rw [Dialect.windowClause] at hRead
        simp only [Option.elim_some, Dialect.windowClause, hRead]
        rfl

end Parts

/-! ### Bounds -/

/-- The bounds of a window, or of its first row. -/
def narrowed (firstOnly : Bool) (window : Option (Nat × Nat)) : Option (Nat × Nat) :=
  if firstOnly then some (window.elim (0, 1) fun (offset, n) => (offset, min n 1)) else window

theorem bounds_eq (q : Query) : q.bounds = q.windowBounds.map (narrowed q.firstOnly) := by
  rw [bounds]
  cases q.windowBounds with
  | error f => rfl
  | ok window =>
      cases hFirst : q.firstOnly with
      | false => rfl
      | true => cases window <;> rfl

/-- The first row of a window is the first of the rows the window shows. -/
theorem within_narrowed (firstOnly : Bool) (window : Option (Nat × Nat)) {α : Type} (rows : List α) :
    within (narrowed firstOnly window) rows =
      if firstOnly then (within window rows).take 1 else within window rows := by
  cases firstOnly with
  | false => rfl
  | true => cases window <;> simp [narrowed, within, List.take_take, Nat.min_comm]

/-- The bounds of a window leave the rows of the window. -/
theorem within_windowBounds {window : Option (Nat × Nat)} (h : q.windowBounds = .ok window)
    {α : Type} (rows : List α) : within window rows = Window.rowsOf q.window rows := by
  rw [windowBounds] at h
  split at h
  next hNone =>
    obtain rfl := Except.ok.inj h
    rw [hNone]
    rfl
  next n hLimit =>
    obtain rfl := Except.ok.inj h
    rw [hLimit]
    rfl
  next index size hPage =>
    split at h
    next => cases h
    next =>
      split at h
      next => cases h
      next =>
        obtain rfl := Except.ok.inj h
        rw [hPage]
        exact (Window.rows_page index size rows).symm

/-- A page is refused when it has no rows or begins too far behind. -/
theorem windowBounds_page (q : Query) (index size : Nat) :
    if size = 0 ∨ rowCountLimit ≤ index * size then
      ∃ reason, (q.page index size).windowBounds = .error (.compile (q.site .query) reason)
    else (q.page index size).windowBounds = .ok (some (index * size, size)) := by
  simp only [windowBounds, page]
  split
  next hRefused =>
    rcases hRefused with hZero | hFar
    · exact ⟨_, if_pos hZero⟩
    · by_cases hZero : size = 0
      · exact ⟨_, if_pos hZero⟩
      · rw [if_neg hZero, if_pos hFar]
        exact ⟨_, rfl⟩
  next hAccepted =>
    rw [not_or] at hAccepted
    rw [if_neg hAccepted.1, if_neg hAccepted.2]

/-! ### Counts -/

theorem params_sourceSql (t : Table) (columns : List Column) : (sourceSql t columns).params = [] :=
  (carries_sourceSql .generic t columns).params_eq_nil

theorem params_orderSql (keys : List (Column × Direction)) : (orderSql keys).params = [] := by
  have hOrder : Sql.Carries .generic { name := "" } [] (orderSql keys) :=
    Sql.Carries.nothing.followed (follows_orderSql keys)
  exact hOrder.params_eq_nil

/-- The rows of a whole result are selected by a text of their own. -/
theorem sql_body (d : Dialect) (t : Table) (columns : List Column) (clause : Sql)
    (keys : List (Column × Direction)) : d.render (bodySql t columns clause keys) =
      d.render (sourceSql t columns) ++ d.render clause ++ d.render (orderSql keys) := by
  rw [bodySql, Dialect.render_append _ (.inr (params_orderSql keys)),
    Dialect.render_append _ (.inl (params_sourceSql t columns))]

/-- The parameters of a whole result are those of its filter. -/
theorem params_body (t : Table) (columns : List Column) (clause : Sql)
    (keys : List (Column × Direction)) : (bodySql t columns clause keys).params = clause.params := by
  rw [bodySql, Sql.params_append, Sql.params_append, params_sourceSql, params_orderSql,
    List.nil_append, List.append_nil]

/-- A count of rows and the table that they are counted in. -/
def countSql (t : Table) : Sql := .text "SELECT COUNT(*) AS total\nFROM " :: t.reference

namespace Parts

variable (h : q.Parts columns clause keys)
include h

/-- A count selects the rows of the whole result by the same text with the same parameters. -/
theorem exists_count : ∃ count, q.countRequest = .ok count ∧
    count.sql = q.dialect.render (countSql q.table) ++ q.dialect.render clause ∧
    count.params = clause.params := by
  have hTable : Sql.Carries q.dialect q.table [] (countSql q.table) :=
    .text_cons rfl rfl Table.carries_reference
  refine ⟨q.dialect.request (countSql q.table ++ clause), ?_, ?_, ?_⟩
  · rw [Query.countRequest, Result.bind_eq_ok_iff]
    exact ⟨clause, Condition.clause_of_operation h.clause, rfl⟩
  · exact Dialect.render_append _ (.inl hTable.params_eq_nil)
  · rw [Dialect.request, Sql.params_append, hTable.params_eq_nil, List.nil_append]

/-- A query with another window. Nothing but the window can fail. -/
theorem compile_windowed (window : Option Window) (firstOnly : Bool) :
    { q with window, firstOnly }.compile = { q with window, firstOnly }.windowBounds.map fun bounds =>
      q.dialect.request
        (bodySql q.table columns clause keys ++ windowSql q.dialect (narrowed firstOnly bounds)) := by
  have hParts : { q with window, firstOnly }.Parts columns clause keys :=
    ⟨h.columns, h.clause, h.keys⟩
  rw [hParts.compile, bounds_eq]
  cases { q with window, firstOnly }.windowBounds <;> rfl

/-- A page compiles to the statement that shows its rows, or is refused. -/
theorem compile_page (index size : Nat) :
    if size = 0 ∨ rowCountLimit ≤ index * size then
      ∃ reason, (q.page index size).compile = .error (.compile (q.site .query) reason)
    else ∃ r, (q.page index size).compile = .ok r := by
  have hBounds := windowBounds_page q index size
  have hCompile : (q.page index size).compile = (q.page index size).windowBounds.map _ :=
    h.compile_windowed (some (.page index size)) q.firstOnly
  split at hBounds
  next hRefused =>
    obtain ⟨reason, hReason⟩ := hBounds
    rw [if_pos hRefused]
    exact ⟨reason, by rw [hCompile, hReason]; rfl⟩
  next hAccepted =>
    rw [if_neg hAccepted]
    exact ⟨_, by rw [hCompile, hBounds]; rfl⟩

/-- What is sent for a window returns its rows, and its first row if only that is asked for. -/
theorem shows_window (hd : q.dialect ∈ Dialect.provided) {window : Option Window} {r : Request}
    (hCompile : { q with window, firstOnly := false }.compile = .ok r) :
    let whole := q.dialect.request (bodySql q.table columns clause keys)
    r.Shows q.dialect whole (fun _ rows => Window.rowsOf window rows) ∧
    ∃ r', { q with window, firstOnly := true }.compile = .ok r' ∧
      r'.Shows q.dialect whole fun _ rows => (Window.rowsOf window rows).take 1 := by
  rw [h.compile_windowed, Result.map_eq_ok_iff] at hCompile
  obtain ⟨bounds, hBounds, rfl⟩ := hCompile
  have hRows {α : Type} (rows : List α) : within bounds rows = Window.rowsOf window rows :=
    within_windowBounds hBounds rows
  refine ⟨(h.shows hd _).congr fun _ => hRows, _, ?_, (h.shows hd (narrowed true bounds)).congr ?_⟩
  · rw [h.compile_windowed, Result.map_eq_ok_iff]
    exact ⟨bounds, hBounds, rfl⟩
  · intro α rows
    rw [within_narrowed, hRows]
    rfl

end Parts

/-! ### Pages -/

/-- Pages part a result. A query that compiles without its page does so with it exactly if the size is
not zero and the rows in front of the page can be counted in 64 bits, and what is sent then returns
the rows of the window that the page stands for. So it is with limits, and with the first row of a
window, which may be asked for before the window is set. Pages of one size have no place of the result
in common and are the result, one behind another; their rows together are as many as a count finds by
the same text. -/
theorem pages_partition (hd : q.dialect ∈ Dialect.provided) {whole : Request}
    (hWhole : { q with window := none, firstOnly := false }.compile = .ok whole) :
    (∀ index size,
      if size = 0 ∨ rowCountLimit ≤ index * size then
        ∃ reason, (q.page index size).compile = .error (.compile (q.site .query) reason)
      else ∃ r, (q.page index size).compile = .ok r) ∧
    (∀ n, ∃ r, (q.limit n).compile = .ok r) ∧
    (∀ window r, { q with window, firstOnly := false }.compile = .ok r →
      r.Shows q.dialect whole (fun _ rows => Window.rowsOf window rows) ∧
      ∃ r', { q with window, firstOnly := true }.compile = .ok r' ∧
        r'.Shows q.dialect whole fun _ rows => (Window.rowsOf window rows).take 1) ∧
    (∀ index size, q.first.page index size = (q.page index size).first) ∧
    (∀ n, q.first.limit n = (q.limit n).first) ∧
    (∀ {α : Type} (rows : List α) (size n : Nat), rows.length ≤ n * size →
      (List.range n).flatMap (fun index => (Window.page index size).rows rows) = rows ∧
      ∀ i j, i ≠ j →
        ((Window.page i size).rows rows.zipIdx).Disjoint ((Window.page j size).rows rows.zipIdx)) ∧
    ∃ columns clause keys count, q.Parts columns clause keys ∧
      whole.sql = q.dialect.render (sourceSql q.table columns) ++ q.dialect.render clause ++
        q.dialect.render (orderSql keys) ∧
      q.countRequest = .ok count ∧
      count.sql = q.dialect.render (countSql q.table) ++ q.dialect.render clause ∧
      count.params = whole.params ∧
      ∀ {α β : Type} (keeps : String → List Param → α → Bool) (column : α → β) (stored : List α)
        (rows : List β),
        rows.Perm ((stored.filter (keeps (q.dialect.render clause) count.params)).map column) →
        ∀ size n, rows.length ≤ n * size →
          ((List.range n).map fun index => ((Window.page index size).rows rows).length).sum =
            stored.countP (keeps (q.dialect.render clause) count.params) := by
  obtain ⟨columns, clause, keys, hColumns, hClause, hKeys⟩ := exists_parts hWhole
  have hParts : q.Parts columns clause keys := ⟨hColumns, hClause, hKeys⟩
  have hBody : whole = q.dialect.request (bodySql q.table columns clause keys) := by
    rw [hParts.compile_windowed] at hWhole
    obtain rfl := Except.ok.inj hWhole
    exact congrArg q.dialect.request (List.append_nil _)
  rw [hBody]
  refine ⟨hParts.compile_page, ?_, fun window r => hParts.shows_window hd, fun _ _ => rfl,
    fun _ => rfl, ?_, ?_⟩
  · exact fun n => ⟨_, hParts.compile_windowed (some (.limit n)) q.firstOnly⟩
  · intro α rows size n hLong
    refine ⟨?_, fun i j hDifferent => Window.disjoint_rows_page hDifferent rows⟩
    rw [Window.flatMap_rows_page, List.take_of_length_le hLong]
  · obtain ⟨count, hCount, hText, hParams⟩ := hParts.exists_count
    refine ⟨columns, clause, keys, count, hParts, sql_body .., hCount, hText, ?_, ?_⟩
    · exact hParams.trans (params_body ..).symm
    · intro α β keeps column stored rows hRows size n hLong
      rw [← List.length_flatMap, Window.flatMap_rows_page, List.take_of_length_le hLong,
        hRows.length_eq, List.length_map, List.countP_eq_length_filter]

/-- A table, a column and a value with the word in them that begins a window clause, and counts in the
order that has the rows to skip in front. -/
theorem pages_partition_hostile :
    let t : Table :=
      { name := "limit", columns := [.ofTy "LIMIT" (.integer .int64), .ofTy "note" .text] }
    let q : Query :=
      { table := t, dialect := .mysql, order := [("limit", .descending)]
        filter := some (.compare "note" .equal [.text (some "LIMIT 1")]) }
    ∃ whole r r', q.compile = .ok whole ∧ (q.page 3 10).compile = .ok r ∧
      (q.first.page 3 10).compile = .ok r' ∧ q.dialect.body r.sql = q.dialect.tokens whole.sql ∧
      (∀ rows : List Row, q.dialect.shown r.sql rows = some (rows.extract 30 40)) ∧
      ∀ rows : List Row, q.dialect.shown r'.sql rows = some ((rows.extract 30 40).take 1) := by
  intro t q
  have hd : q.dialect ∈ Dialect.provided := by simp [Dialect.provided, q]
  have hWhole : { q with window := none, firstOnly := false }.compile = .ok _ := rfl
  have hPage : { q with window := some (.page 3 10), firstOnly := false }.compile = .ok _ := rfl
  obtain ⟨-, -, hShows, -⟩ := pages_partition hd hWhole
  obtain ⟨hRows, r', hFirst, hTake⟩ := hShows _ _ hPage
  exact ⟨_, _, r', hWhole, hPage, hFirst, hRows.body, fun rows => hRows.shown rows,
    fun rows => hTake.shown rows⟩

end Query

end SqlMapper
