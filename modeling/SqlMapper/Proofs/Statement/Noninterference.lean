import Mathlib.Data.List.Forall2
import SqlMapper.Proofs.Condition.Compiled
import SqlMapper.Proofs.Statement.Basic

/-! Values never reach the text of a statement. Two builders that differ in values only compile to
the same texts, or fail alike. The two runs are followed piece by piece: they agree on the shape of
what is written, and a dialect gives letters to shapes. -/
namespace SqlMapper

/-! ### Shapes -/

/-- The piece without its value. -/
def Piece.shape : Piece → Piece
  | .bind _ sqlType => .bind .null sqlType
  | p => p

namespace Sql

/-- What is written, without the bound values. -/
def shape (sql : Sql) : Sql := sql.map Piece.shape

@[simp] theorem shape_nil : shape [] = [] := rfl

@[simp] theorem shape_text (s : String) (sql : Sql) :
    shape (.text s :: sql) = .text s :: shape sql := rfl

@[simp] theorem shape_name (s : String) (sql : Sql) :
    shape (.name s :: sql) = .name s :: shape sql := rfl

@[simp] theorem shape_bind (v : Value) (t : String) (sql : Sql) :
    shape (.bind v t :: sql) = .bind .null t :: shape sql := rfl

@[simp] theorem shape_append (a b : Sql) : shape (a ++ b) = shape a ++ shape b :=
  List.map_append

theorem shape_joined (s : String) (parts : List Sql) :
    shape (joined s parts) = joined s (parts.map shape) :=
  map_joined rfl parts

theorem shape_enclosed (sql : Sql) : shape (enclosed sql) = enclosed (shape sql) := by
  simp [enclosed]

theorem shape_enclosedIf (needed : Bool) {a b : Sql} (h : a.shape = b.shape) :
    shape (enclosedIf needed a) = shape (enclosedIf needed b) := by
  cases needed with
  | false => exact h
  | true => rw [enclosedIf, enclosedIf, if_pos rfl, if_pos rfl, shape_enclosed, shape_enclosed, h]

end Sql

namespace Dialect

theorem letters_shape (d : Dialect) (position : Nat) (sql : Sql) :
    d.letters position sql.shape = d.letters position sql := by
  induction sql generalizing position with
  | nil => rfl
  | cons p sql ih => cases p <;> simp [letters, ih]

/-- The text of a statement is a function of its shape. -/
theorem render_congr (d : Dialect) {a b : Sql} (h : a.shape = b.shape) :
    d.render a = d.render b := by
  rw [render, render, ← letters_shape, h, letters_shape]

end Dialect

/-! ### Comparisons -/

namespace Predicate

/-- The comparisons differ in values only, and a single value is missing in both or in neither. -/
structure Alike (p q : Predicate) : Prop where
  column : p.column = q.column
  operator : p.operator = q.operator
  count : p.values.length = q.values.length
  missing : ∀ {v w}, p.values = [v] → q.values = [w] → v.isNull = w.isNull

variable {p q : Predicate}

theorem forValues_alike (h : p.Alike q) :
    p.operator.forValues p.values = q.operator.forValues q.values := by
  obtain ⟨column, operator, values⟩ := p
  obtain ⟨column', operator', values'⟩ := q
  obtain ⟨rfl, rfl, hCount, hMissing⟩ := h
  dsimp only at hCount hMissing ⊢
  match values, values' with
  | [], [] => rfl
  | [v], [w] => simp [Operator.forValues, hMissing rfl rfl]
  | v :: v' :: vs, w :: w' :: ws =>
      simp only [List.length_cons, Nat.add_right_cancel_iff] at hCount
      simp [Operator.forValues, hCount]

theorem shape_comparison (o : Operator) (sqlType : String) {vs ws : List Value}
    (hCount : vs.length = ws.length) :
    Sql.shape (comparison o sqlType vs) = Sql.shape (comparison o sqlType ws) := by
  have hOperands : (o.operands vs).length = (o.operands ws).length := by
    cases o <;> first | exact hCount | rfl
  have hBinds (values : List Value) :
      (values.map fun v => [Piece.bind v sqlType]).map Sql.shape =
        List.replicate values.length [.bind .null sqlType] := by
    rw [List.map_map, ← List.map_const']
    rfl
  simp only [comparison_eq, Sql.shape_append, Sql.shape_text, List.cons_append, Sql.shape_joined,
    hBinds, hOperands]

/-- Comparisons that are alike are written in one shape, or refused alike. -/
theorem sql_alike (h : p.Alike q) (d : Dialect) (t : Table) (operation : Operation) :
    (p.sql d t operation).map Sql.shape = (q.sql d t operation).map Sql.shape := by
  simp only [Predicate.sql, h.column, forValues_alike h]
  refine Result.map_bind_congr_right fun c => ?_
  cases q.operator.forValues q.values with
  | error reason => rfl
  | ok o =>
      refine Result.map_bind_congr_right fun sqlType => ?_
      have hShape := shape_comparison o sqlType h.count
      simp [pure, Except.pure, Except.map, hShape]

end Predicate

/-! ### Conditions -/

namespace Condition

mutual

/-- The conditions have one shape, with comparisons that are alike in the same places. -/
def Alike : Condition → Condition → Prop
  | leaf p, leaf q => p.Alike q
  | group xs, group ys => AllAlike xs ys
  | _, _ => False

/-- The children are alike one by one, behind the same links. -/
def AllAlike : List (Link × Condition) → List (Link × Condition) → Prop
  | [], [] => True
  | (link, c) :: xs, (link', c') :: ys => link = link' ∧ Alike c c' ∧ AllAlike xs ys
  | _, _ => False

end

theorem length_eq_of_allAlike : ∀ {xs ys : List (Link × Condition)}, AllAlike xs ys →
    xs.length = ys.length
  | [], [], _ => rfl
  | _ :: _, _ :: _, ⟨_, _, hRest⟩ => congrArg Nat.succ (length_eq_of_allAlike hRest)

theorem isCompound_group (xs : List (Link × Condition)) :
    (group xs).isCompound = decide (1 < xs.length) := by
  match xs with
  | [] | [_] | _ :: _ :: _ => simp [isCompound]

theorem isEmpty_group (xs : List (Link × Condition)) :
    (group xs).isEmpty = decide (xs.length = 0) := by
  cases xs <;> simp [isEmpty]

theorem isCompound_alike {c c' : Condition} (h : c.Alike c') : c.isCompound = c'.isCompound := by
  match c, c' with
  | leaf p, leaf q => rfl
  | group xs, group ys => rw [isCompound_group, isCompound_group, length_eq_of_allAlike h]

theorem isEmpty_alike {c c' : Condition} (h : c.Alike c') : c.isEmpty = c'.isEmpty := by
  match c, c' with
  | leaf p, leaf q => rfl
  | group xs, group ys => rw [isEmpty_group, isEmpty_group, length_eq_of_allAlike h]

theorem shape_asChild {c c' : Condition} (h : c.Alike c') {a b : Sql} (hShape : a.shape = b.shape) :
    (c.asChild a).shape = (c'.asChild b).shape := by
  rw [asChild, asChild, isCompound_alike h]
  exact Sql.shape_enclosedIf _ hShape

mutual

theorem sql_alike (d : Dialect) (t : Table) (operation : Operation) :
    ∀ (c : Condition) {c' : Condition}, c.Alike c' →
      (c.sql d t operation).map Sql.shape = (c'.sql d t operation).map Sql.shape
  | leaf p, leaf q, h => Predicate.sql_alike h d t operation
  | group [], group [], _ => rfl
  | group ((_, c) :: xs), group ((_, c') :: ys), ⟨_, hFirst, hRest⟩ => by
      rw [Condition.sql, Condition.sql]
      exact Result.map_bind_congr (sql_alike d t operation c hFirst) fun a b hShape =>
        sqlAfter_alike d t operation xs hRest (shape_asChild hFirst hShape) none

theorem sqlAfter_alike (d : Dialect) (t : Table) (operation : Operation) :
    ∀ (xs : List (Link × Condition)) {ys : List (Link × Condition)}, AllAlike xs ys →
      ∀ {a b : Sql}, a.shape = b.shape → ∀ previous,
      (sqlAfter d t operation a previous xs).map Sql.shape =
        (sqlAfter d t operation b previous ys).map Sql.shape
  | [], [], _, a, b, hShape, _ => by
      rw [sqlAfter, sqlAfter, Except.map, Except.map, hShape]
  | (link, c) :: xs, (_, c') :: ys, ⟨rfl, hFirst, hRest⟩, a, b, hShape, previous => by
      rw [sqlAfter, sqlAfter]
      refine Result.map_bind_congr (sql_alike d t operation c hFirst) fun right right' hRight => ?_
      refine sqlAfter_alike d t operation xs hRest ?_ (some link)
      -- Both parts get parentheses by the shape of the tree and the links, never by a value.
      change Sql.shape (regrouped previous link a ++ .text link.word :: c.asChild right) =
        Sql.shape (regrouped previous link b ++ .text link.word :: asChild _ right')
      rw [Sql.shape_append, Sql.shape_append, Sql.shape_text, Sql.shape_text,
        shape_asChild hFirst hRight, regrouped, regrouped, Sql.shape_enclosedIf _ hShape]

end

/-- Filters that are related stay so without what asks for nothing, where related conditions are
empty groups both or neither. -/
theorem effective_rel {R : Condition → Condition → Prop}
    (hIsEmpty : ∀ {c c' : Condition}, R c c' → c.isEmpty = c'.isEmpty) {f g : Option Condition}
    (h : Option.Rel R f g) : Option.Rel R (effective f) (effective g) := by
  cases h with
  | none => exact .none
  | @some c c' h =>
      have hEmpty := hIsEmpty h
      cases hIs : c'.isEmpty with
      | true =>
          rw [hIs] at hEmpty
          simp only [effective, Option.filter, hEmpty, hIs]
          exact .none
      | false =>
          rw [hIs] at hEmpty
          simp only [effective, Option.filter, hEmpty, hIs]
          exact .some h

theorem isNone_eq_of_rel {R : Condition → Condition → Prop} {f g : Option Condition}
    (h : Option.Rel R f g) : f.isNone = g.isNone := by
  cases h <;> rfl

theorem clause_alike (d : Dialect) (t : Table) (operation : Operation) {f g : Option Condition}
    (h : Option.Rel Alike f g) :
    (clause d t operation f).map Sql.shape = (clause d t operation g).map Sql.shape := by
  cases h with
  | none => rfl
  | @some c c' h =>
      rw [clause, clause]
      refine Result.map_bind_congr (sql_alike d t operation c h) fun a b hShape => ?_
      simp [pure, Except.pure, Except.map, hShape]

end Condition

/-! ### Rows and assignments -/

theorem isEmpty_eq_of_forall₂ {α β : Type} {R : α → β → Prop} {xs : List α} {ys : List β}
    (h : List.Forall₂ R xs ys) : xs.isEmpty = ys.isEmpty := by
  cases h <;> rfl

/-- Rows of the same lengths. -/
abbrev RowsAlike : List (List Value) → List (List Value) → Prop :=
  List.Forall₂ fun row row' => row.length = row'.length

namespace RowsAlike

/-- What depends on the lengths of rows only is the same for both. -/
theorem map_eq {β : Type} {rows rows' : List (List Value)} (h : RowsAlike rows rows')
    {f : List Value → β} (hf : ∀ {row row'}, row.length = row'.length → f row = f row') :
    rows.map f = rows'.map f := by
  have hMapped : List.Forall₂ Eq (rows.map f) (rows'.map f) :=
    List.rel_map (fun _ _ hLength => hf hLength) h
  rwa [List.forall₂_eq_eq_eq] at hMapped

end RowsAlike

namespace Insert

theorem misfit?_alike (width : Nat) {rows rows' : List (List Value)} (h : RowsAlike rows rows')
    (index : Nat) : misfit? width index rows = misfit? width index rows' := by
  induction h generalizing index with
  | nil => rfl
  | @cons row row' rows rows' hLength hRest ih => rw [misfit?, misfit?, hLength, ih]

theorem shape_bindings {row row' : List Value} (hLength : row.length = row'.length)
    (types : List String) :
    (row.zipWith (fun v type => [Piece.bind v type]) types).map Sql.shape =
      (row'.zipWith (fun v type => [Piece.bind v type]) types).map Sql.shape := by
  induction row generalizing row' types with
  | nil =>
      obtain rfl := List.eq_nil_of_length_eq_zero hLength.symm
      rfl
  | cons v row ih =>
      cases row' with
      | nil => simp at hLength
      | cons w row' =>
          cases types with
          | nil => rfl
          | cons type types => simpa using ih (Nat.succ.inj hLength) types

theorem shape_rowSql (types : List String) {row row' : List Value}
    (hLength : row.length = row'.length) :
    (rowSql types row).shape = (rowSql types row').shape := by
  rw [rowSql, rowSql, Sql.shape_enclosed, Sql.shape_enclosed, Sql.shape_joined, Sql.shape_joined,
    shape_bindings hLength]

theorem shape_rowsSql (t : Table) (columns : List Column) (types : List String)
    {rows rows' : List (List Value)} (h : RowsAlike rows rows') :
    (rowsSql t columns types rows).shape = (rowsSql t columns types rows').shape := by
  have hParts : (rows.map (rowSql types)).map Sql.shape =
      (rows'.map (rowSql types)).map Sql.shape := by
    rw [List.map_map, List.map_map]
    exact h.map_eq fun hLength => shape_rowSql types hLength
  simp only [rowsSql, Sql.shape_append, Sql.shape_text, List.cons_append, Sql.shape_joined, hParts]

theorem batches_alike {β : Type} (d : Dialect) {rows rows' : List (List Value)}
    (h : RowsAlike rows rows') {f : List (List Value) → β}
    (hf : ∀ {rs rs'}, RowsAlike rs rs' → f rs = f rs') :
    (batches d rows).map f = (batches d rows').map f := by
  unfold batches
  split
  · simp [hf h]
  · rw [List.map_map, List.map_map]
    exact h.map_eq fun hLength => hf (.cons hLength .nil)

theorem texts_alike (d : Dialect) (t : Table) (columns : List Column) (types : List String)
    {rows rows' : List (List Value)} (h : RowsAlike rows rows') (clause : Sql) :
    ((batches d rows).map fun rs => d.request (rowsSql t columns types rs ++ clause)).map
        Request.sql =
      ((batches d rows').map fun rs => d.request (rowsSql t columns types rs ++ clause)).map
        Request.sql := by
  rw [List.map_map, List.map_map]
  refine batches_alike d h fun hRows => d.render_congr ?_
  rw [Sql.shape_append, Sql.shape_append, shape_rowsSql t columns types hRows]

/-- Insertions of rows of the same lengths have the same texts, or fail alike. -/
theorem compileUpsert_alike (i : Insert) {rows : List (List Value)} (h : RowsAlike i.rows rows) :
    i.compileUpsert.map (Option.map (List.map Request.sql)) =
      ({ i with rows } : Insert).compileUpsert.map (Option.map (List.map Request.sql)) := by
  have hMisfit (width : Nat) := misfit?_alike width h 0
  simp only [compileUpsert, isEmpty_eq_of_forall₂ h, hMisfit, site]
  refine Result.map_bind_congr_right fun columns => ?_
  cases rows.isEmpty with
  | true => rfl
  | false =>
      simp only [Bool.false_eq_true, if_false]
      cases misfit? columns.length 0 rows with
      | some misfit => rfl
      | none =>
          dsimp only
          split
          · rfl
          · refine Result.map_bind_congr_right fun types => ?_
            have hTexts := texts_alike i.dialect i.table columns types h
            simp only [pure, Except.pure, Except.map, Option.map_map, Function.comp_def, hTexts]

end Insert

namespace Update

theorem resolved_alike (t : Table) {xs ys : List (String × Value)}
    (h : List.Forall₂ (fun x y => x.1 = y.1) xs ys) :
    (resolved t xs).map (List.map Prod.fst) = (resolved t ys).map (List.map Prod.fst) := by
  induction h with
  | nil => rfl
  | @cons x y xs ys hName hRest ih =>
      obtain ⟨name, v⟩ := x
      obtain ⟨_, w⟩ := y
      obtain rfl : name = _ := hName
      rw [resolved, resolved]
      refine Result.map_bind_congr_right fun c => ?_
      refine Result.map_bind_congr ih fun cs cs' hColumns => ?_
      simp [pure, Except.pure, Except.map, hColumns]

theorem assignmentSql_alike (d : Dialect) (table : String) {xs ys : List (Column × Value)}
    (h : xs.map Prod.fst = ys.map Prod.fst) :
    (assignmentSql d table xs).map (List.map Sql.shape) =
      (assignmentSql d table ys).map (List.map Sql.shape) := by
  induction xs generalizing ys with
  | nil =>
      obtain rfl : ys = [] := by simpa using h.symm
      rfl
  | cons x xs ih =>
      cases ys with
      | nil => simp at h
      | cons y ys =>
          obtain ⟨c, v⟩ := x
          obtain ⟨_, w⟩ := y
          simp only [List.map_cons, List.cons.injEq] at h
          obtain ⟨rfl, hRest⟩ := h
          rw [assignmentSql, assignmentSql]
          refine Result.map_bind_congr_right fun type => ?_
          refine Result.map_bind_congr (ih hRest) fun parts parts' hParts => ?_
          simp [pure, Except.pure, Except.map, hParts]

end Update

/-! ### Statements -/

namespace Statement

/-- The builders differ in values only. -/
inductive Alike : Statement → Statement → Prop where
  | insert (i : Insert) {rows : List (List Value)} (hRows : RowsAlike i.rows rows) :
      Alike (.insert i) (.insert { i with rows })
  | update (u : Update) {assignments : List (String × Value)} {filter : Option Condition}
      (hColumns : List.Forall₂ (fun x y => x.1 = y.1) u.assignments assignments)
      (hFilter : Option.Rel Condition.Alike u.filter filter) :
      Alike (.update u) (.update { u with assignments, filter })
  | delete (x : Delete) {filter : Option Condition}
      (hFilter : Option.Rel Condition.Alike x.filter filter) :
      Alike (.delete x) (.delete { x with filter })
  | select (q : Query) {filter : Option Condition}
      (hFilter : Option.Rel Condition.Alike q.filter filter) :
      Alike (.select q) (.select { q with filter })
  | count (q : Query) {filter : Option Condition}
      (hFilter : Option.Rel Condition.Alike q.filter filter) :
      Alike (.count q) (.count { q with filter })

variable {filter : Option Condition}

theorem update_alike (u : Update) {assignments : List (String × Value)}
    (hColumns : List.Forall₂ (fun x y => x.1 = y.1) u.assignments assignments)
    (hFilter : Option.Rel Condition.Alike u.filter filter) :
    u.compile.map Request.sql =
      ({ u with assignments, filter } : Update).compile.map Request.sql := by
  have hEffective := Condition.effective_rel Condition.isEmpty_alike hFilter
  simp only [Update.compile, Update.site, isEmpty_eq_of_forall₂ hColumns,
    Condition.isNone_eq_of_rel hEffective]
  split
  · rfl
  · split
    · rfl
    · refine Result.map_bind_congr
        (Update.resolved_alike u.table hColumns) fun cs cs' hResolved => ?_
      refine Result.map_bind_congr
        (Update.assignmentSql_alike u.dialect u.table.name hResolved) fun parts parts' hParts => ?_
      refine Result.map_bind_congr
        (Condition.clause_alike u.dialect u.table .update hEffective) fun a b hClause => ?_
      have hShape : Sql.shape (.text "UPDATE " :: u.table.reference ++ .text "\nSET " ::
          Sql.joined ", " parts ++ a) = Sql.shape (.text "UPDATE " :: u.table.reference ++
          .text "\nSET " :: Sql.joined ", " parts' ++ b) := by
        simp [Sql.shape_joined, hParts, hClause]
      simp only [pure, Except.pure, Except.map]
      exact congrArg Except.ok (u.dialect.render_congr hShape)

theorem delete_alike (x : Delete) (hFilter : Option.Rel Condition.Alike x.filter filter) :
    x.compile.map Request.sql = ({ x with filter } : Delete).compile.map Request.sql := by
  have hEffective := Condition.effective_rel Condition.isEmpty_alike hFilter
  simp only [Delete.compile, Delete.site, Condition.isNone_eq_of_rel hEffective]
  split
  · rfl
  · refine Result.map_bind_congr
      (Condition.clause_alike x.dialect x.table .delete hEffective) fun a b hClause => ?_
    refine congrArg Except.ok (x.dialect.render_congr ?_)
    simp [hClause]

theorem select_alike (q : Query) (hFilter : Option.Rel Condition.Alike q.filter filter) :
    q.compile.map Request.sql = ({ q with filter } : Query).compile.map Request.sql := by
  have hEffective := Condition.effective_rel Condition.isEmpty_alike hFilter
  simp only [Query.compile]
  refine Result.map_bind_congr_right fun columns => ?_
  refine Result.map_bind_congr_right fun keys => ?_
  refine Result.map_bind_congr_right fun window => ?_
  refine Result.map_bind_congr
    (Condition.clause_alike q.dialect q.table .query hEffective) fun a b hClause => ?_
  refine congrArg Except.ok (q.dialect.render_congr ?_)
  simp [hClause]

theorem count_alike (q : Query) (hFilter : Option.Rel Condition.Alike q.filter filter) :
    q.countRequest.map Request.sql = ({ q with filter } : Query).countRequest.map Request.sql := by
  have hEffective := Condition.effective_rel Condition.isEmpty_alike hFilter
  simp only [Query.countRequest]
  refine Result.map_bind_congr
    (Condition.clause_alike q.dialect q.table .count hEffective) fun a b hClause => ?_
  refine congrArg Except.ok (q.dialect.render_congr ?_)
  simp [hClause]

theorem insert_alike (i : Insert) {rows : List (List Value)} (hRows : RowsAlike i.rows rows) :
    i.compile.map (List.map Request.sql) =
      ({ i with rows } : Insert).compile.map (List.map Request.sql) := by
  simp only [Insert.compile, Insert.site]
  refine Result.map_bind_congr (i.compileUpsert_alike hRows) fun a b hTexts => ?_
  match a, b with
  | none, none => rfl
  | some a, some b => exact congrArg Except.ok (Option.some.inj hTexts)
  | none, some b => simp at hTexts
  | some a, none => simp at hTexts

/-- Builders that differ in values only have the same texts, or fail with the same failure. -/
theorem texts_eq_of_alike {a b : Statement} (h : a.Alike b) :
    a.compile.map (List.map Request.sql) = b.compile.map (List.map Request.sql) := by
  have hSingle (x : Result Request) :
      (x.map ([·])).map (List.map Request.sql) = (x.map Request.sql).map ([·]) := by
    cases x <;> rfl
  cases h with
  | insert i hRows => exact insert_alike i hRows
  | update u hColumns hFilter =>
      rw [compile, compile, hSingle, hSingle, update_alike u hColumns hFilter]
  | delete x hFilter => rw [compile, compile, hSingle, hSingle, delete_alike x hFilter]
  | select q hFilter => rw [compile, compile, hSingle, hSingle, select_alike q hFilter]
  | count q hFilter => rw [compile, compile, hSingle, hSingle, count_alike q hFilter]

/-- Quotes, placeholders and a missing value in place of harmless values. -/
theorem texts_eq_of_alike_hostile :
    let t : Table := { name := "t", columns := [.ofTy "a" .text] }
    let u (x y z : Option String) : Update :=
      { table := t, dialect := .mysql, assignments := [("a", .text x)],
        filter := some (.any
          [.compare "a" .equal [.text y], .compare "a" .isIn [.text x, .text z]]) }
    let a := Statement.update (u (some "x") (some "y") (some "z"))
    let b := Statement.update (u none (some "' OR `a` = ? -- $1") (some ")"))
    a.Alike b ∧ a.compile.map (List.map Request.sql) = b.compile.map (List.map Request.sql) ∧
      ∃ texts, a.compile.map (List.map Request.sql) = .ok texts := by
  intro t u a b
  have hEqual : Predicate.Alike ⟨"a", .equal, [.text (some "y")]⟩
      ⟨"a", .equal, [.text (some "' OR `a` = ? -- $1")]⟩ :=
    ⟨rfl, rfl, rfl, by rintro v w ⟨⟩ ⟨⟩; rfl⟩
  have hIn : Predicate.Alike ⟨"a", .isIn, [.text (some "x"), .text (some "z")]⟩
      ⟨"a", .isIn, [.text none, .text (some ")")]⟩ :=
    ⟨rfl, rfl, rfl, by rintro v w ⟨⟩⟩
  have hAlike : a.Alike b :=
    .update _ (.cons rfl .nil) (.some ⟨rfl, hEqual, rfl, hIn, trivial⟩)
  exact ⟨hAlike, texts_eq_of_alike hAlike, _, rfl⟩

end Statement

end SqlMapper
