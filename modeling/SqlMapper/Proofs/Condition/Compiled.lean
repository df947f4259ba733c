import SqlMapper.Condition.Sql
import SqlMapper.Proofs.Condition.Truth
import SqlMapper.Proofs.Lexis.Piece
import SqlMapper.Proofs.Result

/-! What the text of a condition is made of when it compiles: leaves, each written by itself, and
groups that grow by one child at a time. Whatever is claimed of compiled conditions follows by
induction on `Written`, which says all that a step can do. -/
namespace SqlMapper

namespace Operator

/-- The values are as many as the comparison takes. -/
def Fits : Operator → List Value → Prop
  | isNull, _ | isNotNull, _ => True
  | isIn, vs | notIn, vs => vs ≠ []
  | between, vs | notBetween, vs => ∃ low high, vs = [low, high]
  | _, vs => ∃ v, vs = [v]

/-- The values that are bound: a test for NULL leaves them out. -/
def operands : Operator → List Value → List Value
  | isNull, _ | isNotNull, _ => []
  | _, vs => vs

end Operator

namespace Predicate

/-- A comparison is accepted only as the one that is meant, and with values that fit it. -/
theorem eq_meant_of_forValues {p : Predicate} {o : Operator}
    (h : p.operator.forValues p.values = .ok o) : o = p.meant ∧ o.Fits p.values := by
  obtain ⟨column, operator, values⟩ := p
  simp only [Operator.forValues] at h
  rcases values with _ | ⟨v, _ | ⟨w, _ | ⟨x, rest⟩⟩⟩
  case cons.nil =>
    cases hNull : v.isNull <;> cases operator <;> simp [Operator.arity, hNull] at h <;>
      subst h <;> simp [meant, hNull, Operator.Fits]
  all_goals
    cases operator <;> simp [Operator.arity] at h <;> subst h <;> simp [meant, Operator.Fits]

/-- A comparison is written with the words of its operator around its values. -/
theorem comparison_eq (o : Operator) (sqlType : String) (values : List Value) :
    comparison o sqlType values = .text o.opening ::
      Sql.joined o.separator ((o.operands values).map fun v => [.bind v sqlType]) ++ o.closing := by
  cases o <;> rfl

theorem spaced_comparison (x : String) (o : Operator) (sqlType : String) (values : List Value) :
    Sql.Spaced (.name x :: comparison o sqlType values) := by
  have hName : Sql.Spaced [.name x] := .single rfl
  have hBinds {s : String} (hs : Sql.separates s = true) :
      Sql.Spaced (Sql.joined s ((o.operands values).map fun v => [.bind v sqlType])) := by
    refine .joined hs fun part hPart => ?_
    obtain ⟨v, -, rfl⟩ := List.mem_map.mp hPart
    exact .single rfl
  rw [comparison_eq, List.cons_append]
  cases o with
  | isNull | isNotNull => exact hName.append_opening (.single rfl) (by simp; rfl)
  | isIn | notIn =>
      have hList := Sql.Spaced.linked (s := ")") rfl (hBinds (s := ", ") rfl) .nil
      exact .linked rfl hName hList
  | equal | notEqual | less | lessEqual | greater | greaterEqual | like | notLike | between
  | notBetween =>
      simp only [Operator.closing, List.append_nil]
      exact .linked rfl hName (hBinds rfl)

/-- All that a compiled comparison can be. -/
theorem sql_eq_ok_iff {d : Dialect} {t : Table} {operation : Operation} {p : Predicate}
    {sql : Sql} :
    p.sql d t operation = .ok sql ↔ ∃ c o sqlType, t.find? p.column = some c ∧
      p.operator.forValues p.values = .ok o ∧ d.columnType t.name c = .ok sqlType ∧
      sql = .name c.name :: comparison o sqlType p.values := by
  unfold Predicate.sql Table.column
  cases hFind : t.find? p.column with
  | none => simp [Result.bind_eq_ok_iff]
  | some c =>
      cases hFor : p.operator.forValues p.values with
      | error reason => simp [Result.bind_eq_ok_iff, throw, throwThe, MonadExceptOf.throw]
      | ok o =>
          simp only [Result.bind_eq_ok_iff, Except.ok.injEq, exists_eq_left', Option.some.injEq]
          constructor
          · rintro ⟨sqlType, hType, hSql⟩
            exact ⟨c, o, sqlType, rfl, rfl, hType, (Except.ok.inj hSql).symm⟩
          · rintro ⟨c', o', sqlType, rfl, rfl, hType, rfl⟩
            exact ⟨sqlType, hType, rfl⟩

end Predicate

namespace Sql

/-- The part between parentheses if it needs them. -/
def enclosedIf (needed : Bool) (sql : Sql) : Sql := if needed then enclosed sql else sql

/-- Parentheses around a text that needs no blanks need none either. -/
theorem Spaced.enclosedIf {sql : Sql} (h : sql.Spaced) (needed : Bool) :
    (Sql.enclosedIf needed sql).Spaced := by
  cases needed with
  | false => exact h
  | true => exact h.enclosed

variable {f : Piece → Piece}

/-- A change of pieces that leaves the separator alone changes each part by itself. -/
theorem map_joined {s : String} (hText : f (.text s) = .text s) (parts : List Sql) :
    (joined s parts).map f = joined s (parts.map (List.map f)) := by
  induction parts with
  | nil => rfl
  | cons part parts ih =>
      cases parts with
      | nil => rfl
      | cons next parts => simpa [joined, hText] using ih

theorem map_enclosedIf (hText : ∀ s, f (.text s) = .text s) (needed : Bool) (sql : Sql) :
    (enclosedIf needed sql).map f = enclosedIf needed (sql.map f) := by
  cases needed with
  | false => rfl
  | true => simp [enclosedIf, enclosed, hText]

end Sql

namespace Condition

/-- The text of a child inside its group. -/
def asChild (c : Condition) (sql : Sql) : Sql := Sql.enclosedIf c.isCompound sql

/-- What is written of a group, before a child with this link is put behind it. -/
def regrouped (previous : Option Link) (link : Link) (written : Sql) : Sql :=
  Sql.enclosedIf (previous.any (· != link)) written

/-- The link in front of the last child, if that is not the only one. -/
def lastLink : Condition → Option Link
  | leaf _ => none
  | group children => children.tail.getLast?.map Prod.fst

/-- The last link of a group is the one of its last member. -/
theorem lastLink_concat {seen : List (Link × Condition)} (hSeen : seen ≠ []) (link : Link)
    (c : Condition) : lastLink (group (seen ++ [(link, c)])) = some link := by
  cases seen with
  | nil => exact absurd rfl hSeen
  | cons child rest => simp [lastLink]

/-- A condition has several members exactly when it has a link between them. -/
theorem isCompound_iff (c : Condition) : c.isCompound = true ↔ c.lastLink ≠ none := by
  match c with
  | leaf _ | group [] | group [_] => simp [isCompound, lastLink]
  | group (first :: second :: rest) => simp [isCompound, lastLink]

/-- How the text of a condition comes about. A group of the children `seen` grows by one child. -/
inductive Written (d : Dialect) (t : Table) (operation : Operation) : Condition → Sql → Prop where
  | leaf {p : Predicate} {sql : Sql} (h : p.sql d t operation = .ok sql) :
      Written d t operation (leaf p) sql
  | first {link : Link} {c : Condition} {sql : Sql} (h : Written d t operation c sql) :
      Written d t operation (group [(link, c)]) (c.asChild sql)
  | next {seen : List (Link × Condition)} {link : Link} {c : Condition} {left right : Sql}
      (hSeen : seen ≠ []) (hLeft : Written d t operation (group seen) left)
      (hRight : Written d t operation c right) :
      Written d t operation (group (seen ++ [(link, c)]))
        (regrouped (group seen).lastLink link left ++ .text link.word :: c.asChild right)

mutual

/-- What is compiled is written as its tree says. -/
theorem written_of_sql {d : Dialect} {t : Table} {operation : Operation} :
    ∀ (c : Condition) {sql : Sql}, c.sql d t operation = .ok sql → Written d t operation c sql
  | leaf p, sql, h => .leaf (by simpa [Condition.sql] using h)
  | group [], sql, h => by simp [Condition.sql] at h
  | group ((link, c) :: rest), sql, h => by
      rw [Condition.sql, Result.bind_eq_ok_iff] at h
      obtain ⟨first, hFirst, hRest⟩ := h
      have hWritten : Written d t operation (group [(link, c)]) (c.asChild first) :=
        .first (written_of_sql c hFirst)
      exact written_of_sqlAfter rest (List.cons_ne_nil _ _) hWritten hRest

/-- So are the members behind others. -/
theorem written_of_sqlAfter {d : Dialect} {t : Table} {operation : Operation} :
    ∀ (rest : List (Link × Condition)) {seen : List (Link × Condition)} {written sql : Sql},
      seen ≠ [] → Written d t operation (group seen) written →
      sqlAfter d t operation written (group seen).lastLink rest = .ok sql →
      Written d t operation (group (seen ++ rest)) sql
  | [], seen, written, sql, _, hWritten, h => by
      rw [sqlAfter] at h
      cases h
      rwa [List.append_nil]
  | (link, c) :: rest, seen, written, sql, hSeen, hWritten, h => by
      rw [sqlAfter, Result.bind_eq_ok_iff] at h
      obtain ⟨right, hRight, hRest⟩ := h
      have hNext := @Written.next d t operation seen link c _ _ hSeen hWritten
        (written_of_sql c hRight)
      rw [← lastLink_concat hSeen link c] at hRest
      have hAll := written_of_sqlAfter rest (by simp) hNext hRest
      rwa [List.append_assoc] at hAll

end

namespace Written

variable {d : Dialect} {t : Table} {operation : Operation} {c : Condition} {sql : Sql}

/-- A condition needs no blanks around it. -/
theorem spaced (h : Written d t operation c sql) : sql.Spaced := by
  induction h with
  | leaf h =>
      obtain ⟨column, o, sqlType, -, -, -, rfl⟩ := Predicate.sql_eq_ok_iff.mp h
      exact Predicate.spaced_comparison ..
  | first h ih => exact ih.enclosedIf _
  | @next seen link c left right hSeen hLeft hRight ihLeft ihRight =>
      refine .linked ?_ (ihLeft.enclosedIf _) (ihRight.enclosedIf _)
      cases link <;> rfl

end Written

end Condition

/-! ### Operations -/

section Operations

variable {d : Dialect} {t : Table} {operation operation' : Operation} {sql : Sql}

/-- A comparison that compiles is written alike in every operation. -/
theorem Predicate.sql_of_operation {p : Predicate} (h : p.sql d t operation = .ok sql) :
    p.sql d t operation' = .ok sql :=
  sql_eq_ok_iff.mpr (sql_eq_ok_iff.mp h)

namespace Condition

mutual

/-- The text is the same in whatever statement the condition stands. -/
theorem sql_of_operation : ∀ (c : Condition) {sql : Sql}, c.sql d t operation = .ok sql →
    c.sql d t operation' = .ok sql
  | leaf p, sql, h => by
      rw [Condition.sql] at h ⊢
      exact Predicate.sql_of_operation h
  | group [], sql, h => by simp [Condition.sql] at h
  | group ((link, c) :: rest), sql, h => by
      rw [Condition.sql, Result.bind_eq_ok_iff] at h ⊢
      obtain ⟨first, hFirst, hRest⟩ := h
      exact ⟨first, sql_of_operation c hFirst, sqlAfter_of_operation rest hRest⟩

theorem sqlAfter_of_operation : ∀ (rest : List (Link × Condition)) {written sql : Sql}
    {previous : Option Link}, sqlAfter d t operation written previous rest = .ok sql →
    sqlAfter d t operation' written previous rest = .ok sql
  | [], written, sql, previous, h => h
  | (link, c) :: rest, written, sql, previous, h => by
      rw [sqlAfter, Result.bind_eq_ok_iff] at h ⊢
      obtain ⟨right, hRight, hRest⟩ := h
      exact ⟨right, sql_of_operation c hRight, sqlAfter_of_operation rest hRest⟩

end

/-- A clause that compiles is written alike in every operation. -/
theorem clause_of_operation {filter : Option Condition}
    (h : clause d t operation filter = .ok sql) : clause d t operation' filter = .ok sql := by
  cases filter with
  | none => exact h
  | some c =>
      rw [clause, Result.bind_eq_ok_iff] at h ⊢
      obtain ⟨condition, hSql, hClause⟩ := h
      exact ⟨condition, sql_of_operation c hSql, hClause⟩

end Condition

end Operations

end SqlMapper
