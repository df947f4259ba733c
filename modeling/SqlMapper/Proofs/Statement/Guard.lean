import SqlMapper.Exchange.Statements
import SqlMapper.Proofs.Condition.Leaves

/-! Updates and deletions of every row. Whatever filters a builder was given, in whatever order, the
statement has a clause with all their comparisons. It has no clause only where acting on every row
was allowed and no filter compares anything. -/
namespace SqlMapper

open Condition (leaves asked effective)

/-- An update or a deletion. -/
inductive Mutation where
  | update (u : Update)
  | delete (x : Delete)

namespace Mutation

def table : Mutation → Table
  | update u => u.table
  | delete x => x.table

def dialect : Mutation → Dialect
  | update u => u.dialect
  | delete x => x.dialect

def operation : Mutation → Operation
  | update _ => .update
  | delete _ => .delete

def filter : Mutation → Option Condition
  | update u => u.filter
  | delete x => x.filter

def unconditional : Mutation → Bool
  | update u => u.unconditional
  | delete x => x.unconditional

def narrow (c : Condition) : Mutation → Mutation
  | update u => update (u.narrow c)
  | delete x => delete (x.narrow c)

def allow : Mutation → Mutation
  | update u => update { u with unconditional := true }
  | delete x => delete { x with unconditional := true }

def compile : Mutation → Result Request
  | update u => u.compile
  | delete x => x.compile

def execute : Mutation → Exchange Affected
  | update u => u.execute
  | delete x => x.execute

/-- The statement in front of its filter. -/
def head : Mutation → Result Sql
  | update u => do
    let assignments ← Update.resolved u.table u.assignments
    let parts ← Update.assignmentSql u.dialect u.table.name assignments
    return .text "UPDATE " :: u.table.reference ++ .text "\nSET " :: Sql.joined ", " parts
  | delete x => return .text "DELETE FROM " :: x.table.reference

/-- The builders that calls lead to. They were given some filters, in order, and were allowed to act
on every row or not. -/
inductive Reached : List Condition → Bool → Mutation → Prop where
  | newUpdate (table : Table) (dialect : Dialect) : Reached [] false (update { table, dialect })
  | newDelete (table : Table) (dialect : Dialect) : Reached [] false (delete { table, dialect })
  | set {given : List Condition} {allowed : Bool} {u : Update}
      (prior : Reached given allowed (update u)) (column : String) (v : Value) :
      Reached given allowed (update (u.set column v))
  | narrow {given : List Condition} {allowed : Bool} {m : Mutation}
      (prior : Reached given allowed m) (c : Condition) :
      Reached (given ++ [c]) allowed (m.narrow c)
  | allow {given : List Condition} {allowed : Bool} {m : Mutation}
      (prior : Reached given allowed m) : Reached given true m.allow

theorem filter_narrow (m : Mutation) (c : Condition) :
    (m.narrow c).filter = Condition.added m.filter c := by
  cases m <;> rfl

theorem filter_allow (m : Mutation) : m.allow.filter = m.filter := by
  cases m <;> rfl

namespace Reached

variable {given : List Condition} {allowed : Bool} {m : Mutation}

/-- The filter of a builder is made of all that it was given, and of nothing else. -/
theorem filter_eq (h : Reached given allowed m) : m.filter = Condition.merged given := by
  induction h with
  | newUpdate table dialect => rfl
  | newDelete table dialect => rfl
  | set prior column v ih => exact ih
  | @narrow given allowed m prior c ih => rw [filter_narrow, Condition.merged_concat, ih]
  | @allow given allowed m prior ih => rw [filter_allow, ih]

/-- The filter of a builder has the comparisons of all that it was given. -/
theorem asked_filter (h : Reached given allowed m) : asked m.filter = given.flatMap leaves := by
  rw [h.filter_eq, Condition.asked_merged]

theorem unconditional_eq (h : Reached given allowed m) : m.unconditional = allowed := by
  induction h with
  | newUpdate table dialect => rfl
  | newDelete table dialect => rfl
  | set prior column v ih => exact ih
  | @narrow given allowed m prior c ih => cases m <;> exact ih
  | @allow given allowed m prior ih => cases m <;> rfl

end Reached

/-- All that a compiled statement can be. -/
theorem compile_eq_ok {m : Mutation} {r : Request} (h : m.compile = .ok r) :
    (effective m.filter = none → m.unconditional = true) ∧
      ∃ head clause, m.head = .ok head ∧
        Condition.clause m.dialect m.table m.operation (effective m.filter) = .ok clause ∧
        r = m.dialect.request (head ++ clause) := by
  have hAllowed {filter : Option Condition} {unconditional : Bool}
      (hGuard : (filter.isNone && !unconditional) = false) :
      filter = none → unconditional = true := by
    rintro rfl
    simpa using hGuard
  cases m with
  | update u =>
      simp only [compile, Update.compile, Result.guard_eq_ok_iff, Result.bind_eq_ok_iff] at h
      obtain ⟨-, hGuard, assignments, hResolved, parts, hParts, clause, hClause, hRequest⟩ := h
      refine ⟨hAllowed hGuard, _, clause, ?_, hClause, (Except.ok.inj hRequest).symm⟩
      simp only [head, Result.bind_eq_ok_iff]
      exact ⟨assignments, hResolved, parts, hParts, rfl⟩
  | delete x =>
      simp only [compile, Delete.compile, Result.guard_eq_ok_iff, Result.bind_eq_ok_iff] at h
      obtain ⟨hGuard, clause, hClause, hRequest⟩ := h
      exact ⟨hAllowed hGuard, _, clause, rfl, hClause, (Except.ok.inj hRequest).symm⟩

/-- A statement that does not compile sends nothing. -/
theorem execute_of_error {m : Mutation} {e : Failure} (h : m.compile = .error e) (w : Wire) :
    m.execute.runOver w = (.error e, w) := by
  cases m with
  | update u =>
      rw [compile] at h
      rw [execute, Update.execute, h]
      rfl
  | delete x =>
      rw [compile] at h
      rw [execute, Delete.execute, h]
      rfl

/-- The request has a clause that says all of the filter, each of the comparisons among it. -/
def Filtered (m : Mutation) (predicates : List Predicate) (r : Request) : Prop :=
  ∃ head c clause, m.head = .ok head ∧ m.filter = some c ∧
    c.sql m.dialect m.table m.operation = .ok clause ∧
    r = m.dialect.request (head ++ .text "\nWHERE " :: clause) ∧
    ∀ p ∈ predicates, ∃ part, p.sql m.dialect m.table m.operation = .ok part ∧ part <:+: clause

/-- The request has no clause, and no filter asks for one. -/
def Unfiltered (m : Mutation) (r : Request) : Prop :=
  (m.filter = none ∨ m.filter = some (.group [])) ∧
    ∃ head, m.head = .ok head ∧ r = m.dialect.request head

theorem filtered_or_unfiltered {m : Mutation} {r : Request} (h : m.compile = .ok r) :
    m.Filtered (asked m.filter) r ∧ asked m.filter ≠ [] ∨
      m.Unfiltered r ∧ asked m.filter = [] ∧ m.unconditional = true := by
  obtain ⟨hGuard, head, clause, hHead, hClause, rfl⟩ := compile_eq_ok h
  rw [← Condition.asked_effective]
  cases hEffective : effective m.filter with
  | none =>
      rw [hEffective] at hClause
      obtain rfl : [] = clause := Except.ok.inj hClause
      have hUnfiltered : m.Unfiltered (m.dialect.request (head ++ [])) :=
        ⟨Condition.eq_none_or_of_effective hEffective, head, hHead, by rw [List.append_nil]⟩
      exact .inr ⟨hUnfiltered, rfl, hGuard hEffective⟩
  | some c =>
      have hFilter : m.filter = some c := (Option.filter_eq_some_iff.mp hEffective).1
      rw [hEffective, Condition.clause, Result.bind_eq_ok_iff] at hClause
      obtain ⟨sql, hSql, hWhere⟩ := hClause
      obtain rfl := Except.ok.inj hWhere
      have hWritten := Condition.written_of_sql c hSql
      exact .inl ⟨⟨head, c, sql, hHead, hFilter, hSql, rfl, fun p hp => hWritten.leaf_infix hp⟩,
        hWritten.leaves_ne_nil⟩

/-- A statement has a clause with every comparison of the filters that were given, at least one. It
goes without only where that is allowed and there is nothing to compare. Where neither holds there
is no statement, and nothing is sent. -/
theorem filtered_of_reached {given : List Condition} {allowed : Bool} {m : Mutation}
    (h : Reached given allowed m) :
    (∀ r, m.compile = .ok r →
      m.Filtered (given.flatMap leaves) r ∧ given.flatMap leaves ≠ [] ∨
      m.Unfiltered r ∧ given.flatMap leaves = [] ∧ allowed = true) ∧
    (given.flatMap leaves = [] → allowed = false →
      ∃ e, m.compile = .error e ∧ ∀ w, m.execute.runOver w = (.error e, w)) := by
  rw [← h.asked_filter, ← h.unconditional_eq]
  refine ⟨fun r => filtered_or_unfiltered, fun hNone hForbidden => ?_⟩
  cases hCompile : m.compile with
  | error e => exact ⟨e, rfl, execute_of_error hCompile⟩
  | ok r =>
      rcases filtered_or_unfiltered hCompile with ⟨-, hSome⟩ | ⟨-, -, hAllowed⟩
      · exact absurd hNone hSome
      · simp [hForbidden] at hAllowed

/-- Empty groups give way to the comparisons behind them. -/
theorem filtered_of_reached_emptyFirst :
    let t : Table := { name := "t", columns := [.ofTy "a" .boolean] }
    let a := Condition.compare "a" .equal [.boolean (some true)]
    let b := Condition.any [a, .group [(.or, a)]]
    let u : Update := { table := t, dialect := .sqlite }
    let first := update (((u.narrow (.group [])).narrow (.group [])).set "a" .null)
    let m := (first.narrow a).narrow b
    let given := [.group [], .group [], a, b]
    Reached given false m ∧ (∃ r, m.compile = .ok r) ∧
      (∀ r, m.compile = .ok r →
        m.Filtered (given.flatMap leaves) r ∧ given.flatMap leaves ≠ [] ∨
        m.Unfiltered r ∧ given.flatMap leaves = [] ∧ false = true) ∧
      (given.flatMap leaves = [] → false = false →
        ∃ e, m.compile = .error e ∧ ∀ w, m.execute.runOver w = (.error e, w)) := by
  intro t a b u first m given
  have hFirst : Reached [.group [], .group []] false
      (update ((u.narrow (.group [])).narrow (.group []))) :=
    ((Reached.newUpdate t .sqlite).narrow (.group [])).narrow (.group [])
  have hReached : Reached given false m := ((hFirst.set "a" .null).narrow a).narrow b
  exact ⟨hReached, ⟨_, rfl⟩, filtered_of_reached hReached⟩

end Mutation

end SqlMapper
