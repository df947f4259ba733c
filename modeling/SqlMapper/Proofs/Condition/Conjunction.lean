import SqlMapper.Proofs.Condition.Precedence
import SqlMapper.Proofs.Statement.Guard
import SqlMapper.Statement.Query

/-! Filters narrow. A builder merges each filter into those it has, by appending to a group or by
making one. Since a group is read from left to right, what stands in it already is settled before
the next link is looked at. So a filter that ends in an alternative is neither widened nor narrowed
by the one behind it, and a chain of links means what it says in the order in which it was made. -/
namespace SqlMapper

namespace Truth

@[simp] theorem true_and (x : Truth) : Truth.true.and x = x := by
  cases x <;> rfl

@[simp] theorem and_true (x : Truth) : x.and .true = x := by
  cases x <;> rfl

/-- Truth values are joined in any grouping. -/
theorem and_assoc (x y z : Truth) : (x.and y).and z = x.and (y.and z) := by
  cases x <;> cases y <;> cases z <;> rfl

/-- All of the values together. -/
def all (values : List Truth) : Truth := values.foldr and .true

/-- One more truth value is joined with all before it. -/
theorem all_concat (values : List Truth) (x : Truth) :
    all (values ++ [x]) = (all values).and x := by
  induction values with
  | nil => simp [all]
  | cons v vs ih =>
      simp only [all, List.cons_append, List.foldr_cons] at ih ⊢
      rw [ih, and_assoc]

end Truth

namespace Condition

/-! ### Links -/

/-- A link joins what both conditions find, if there is something in front of it. -/
theorem truth_link (m : Comparisons) (t : Table) (row : Cells) {c : Condition}
    (hSome : c.isEmpty = false) (l : Link) (next : Condition) :
    (c.link l next).truth m t row = l.join (c.truth m t row) (next.truth m t row) := by
  match c with
  | leaf p => simp only [Condition.link, truth, truthAfter]
  | group [] => simp [isEmpty] at hSome
  | group (first :: rest) => exact truth_concat m t row (List.cons_ne_nil first rest) l next

/-- A conjunction needs nothing in front of it, as an empty group holds for every row. -/
theorem truth_and (m : Comparisons) (t : Table) (row : Cells) (c next : Condition) :
    (c.and next).truth m t row = (c.truth m t row).and (next.truth m t row) := by
  match c with
  | group [] => simp [Condition.and, Condition.link, truth]
  | leaf p => exact truth_link m t row rfl .and next
  | group (first :: rest) => exact truth_link m t row rfl .and next

/-- What becomes of a condition by calls that each join another one to it. -/
def chained (c : Condition) (calls : List (Link × Condition)) : Condition :=
  calls.foldl (fun built call => built.link call.1 call.2) c

/-- A chain of calls finds what its links make of the conditions, from left to right. -/
theorem truth_chained (m : Comparisons) (t : Table) (row : Cells) {c : Condition}
    (hSome : c.isEmpty = false) (calls : List (Link × Condition)) :
    (c.chained calls).truth m t row = truthAfter m t row (c.truth m t row) calls := by
  induction calls generalizing c with
  | nil => simp [chained, truthAfter]
  | cons call calls ih =>
      obtain ⟨l, next⟩ := call
      have hLinked : (c.link l next).isEmpty = false := by simp [isEmpty_link, hSome]
      rw [truthAfter, ← truth_link m t row hSome]
      exact ih hLinked

/-! ### Filters -/

/-- What a filter finds in a row; every row passes where there is none. -/
def filterTruth (m : Comparisons) (t : Table) (row : Cells) (filter : Option Condition) : Truth :=
  filter.elim .true (truth m t row)

/-- The filter asks for what all of the conditions ask for together, and for nothing only where they
do so. -/
structure Conjoins (filter : Option Condition) (given : List Condition) : Prop where
  none_iff : effective filter = none ↔ ∀ c ∈ given, c.isEmpty = true
  truth_eq : ∀ m t row,
    filterTruth m t row (effective filter) = .all (given.map (truth m t row))

/-- An empty group is passed over, and it would let every row pass. -/
theorem filterTruth_effective (m : Comparisons) (t : Table) (row : Cells)
    (filter : Option Condition) :
    filterTruth m t row (effective filter) = filterTruth m t row filter := by
  cases hEffective : effective filter with
  | none =>
      rcases eq_none_or_of_effective hEffective with rfl | rfl
      · rfl
      · simp [filterTruth, truth]
  | some c => rw [(Option.filter_eq_some_iff.mp hEffective).1]

/-- A filter has no effect exactly when it has no comparison. -/
theorem effective_eq_none_iff (filter : Option Condition) :
    effective filter = none ↔ ∀ c ∈ filter, c.isEmpty = true := by
  simp [effective]

theorem conjoins_nil : Conjoins none [] where
  none_iff := by simp [effective]
  truth_eq _ _ _ := rfl

/-- The step of every builder: one more filter is one more condition to hold. -/
theorem Conjoins.added {filter : Option Condition} {given : List Condition}
    (h : Conjoins filter given) (c : Condition) :
    Conjoins (Condition.added filter c) (given ++ [c]) where
  none_iff := by
    rw [List.forall_mem_append, ← h.none_iff]
    cases filter with
    | none => simp [effective_eq_none_iff, Condition.added]
    | some f => simp [effective_eq_none_iff, Condition.added, Condition.and, isEmpty_link]
  truth_eq m t row := by
    rw [List.map_append, List.map_singleton, Truth.all_concat, ← h.truth_eq,
      filterTruth_effective, filterTruth_effective]
    cases filter with
    | none => simp [Condition.added, filterTruth]
    | some f => exact truth_and m t row f c

/-- Filters that are merged hold together. -/
theorem conjoins_merged (given : List Condition) : Conjoins (merged given) given := by
  have hFrom {filter : Option Condition} {before : List Condition} (h : Conjoins filter before) :
      Conjoins (given.foldl Condition.added filter) (before ++ given) := by
    induction given generalizing filter before with
    | nil => rwa [List.append_nil]
    | cons c given ih =>
        have hAdded := ih (h.added c)
        rwa [List.append_assoc] at hAdded
  exact hFrom conjoins_nil

end Condition

/-! ### Builders -/

open Condition (Conjoins)

namespace Query

/-- The queries that calls lead to. They were given some filters, in order. -/
inductive Reached : List Condition → Query → Prop where
  | new (table : Table) (dialect : Dialect) : Reached [] { table, dialect }
  | select {given : List Condition} {q : Query} (prior : Reached given q) (columns : List String) :
      Reached given { q with columns }
  | narrow {given : List Condition} {q : Query} (prior : Reached given q) (c : Condition) :
      Reached (given ++ [c]) (q.narrow c)
  | orderBy {given : List Condition} {q : Query} (prior : Reached given q) (column : String)
      (direction : Direction) : Reached given (q.orderBy column direction)
  | page {given : List Condition} {q : Query} (prior : Reached given q) (index size : Nat) :
      Reached given (q.page index size)
  | limit {given : List Condition} {q : Query} (prior : Reached given q) (n : Nat) :
      Reached given (q.limit n)
  | first {given : List Condition} {q : Query} (prior : Reached given q) : Reached given q.first

/-- The filter of a query is what its calls gave it, in order. -/
theorem Reached.filter_eq {given : List Condition} {q : Query} (h : Reached given q) :
    q.filter = Condition.merged given := by
  induction h with
  | new table dialect => rfl
  | select prior columns ih => exact ih
  | @narrow given q prior c ih => rw [Query.narrow, Condition.merged_concat, ih]
  | orderBy prior column direction ih => exact ih
  | page prior index size ih => exact ih
  | limit prior n ih => exact ih
  | first prior ih => exact ih

end Query

namespace Condition

/-- Whatever calls led to a query, an update or a deletion, its filter finds in every row what the
conditions it was given find there together. `and` and `or` mean what they say, and so does every
chain of them from left to right. Nothing is asked of the groups inside the conditions. -/
theorem filters_conjoin (m : Comparisons) (t : Table) (row : Cells) :
    (∀ given q, Query.Reached given q → Conjoins q.filter given) ∧
    (∀ given allowed x, Mutation.Reached given allowed x → Conjoins x.filter given) ∧
    ∀ a : Condition, a.isEmpty = false →
      (∀ b : Condition, (a.and b).truth m t row = (a.truth m t row).and (b.truth m t row)) ∧
      (∀ b : Condition, (a.or b).truth m t row = (a.truth m t row).or (b.truth m t row)) ∧
      ∀ calls, (a.chained calls).truth m t row = truthAfter m t row (a.truth m t row) calls := by
  refine ⟨fun given q h => ?_, fun given allowed x h => ?_, fun a hSome => ⟨?_, ?_, ?_⟩⟩
  · rw [h.filter_eq]
    exact conjoins_merged given
  · rw [h.filter_eq]
    exact conjoins_merged given
  · exact truth_and m t row a
  · exact truth_link m t row hSome .or
  · exact truth_chained m t row hSome

/-- A chain that ends in an alternative, then a comparison that fails: the row is left out although
the first filter holds for it. -/
theorem filters_conjoin_alternative :
    let t : Table := { name := "t", columns := [.ofTy "a" .boolean, .ofTy "b" .boolean] }
    let m : Comparisons := fun _ cell v =>
      match cell, v with
      | .boolean x, .boolean y => .ofBool (x == y)
      | _, _ => .unknown
    let row : Cells := fun name => .boolean (some (name == "a"))
    let a := compare "a" .equal [.boolean (some true)]
    let b := compare "b" .equal [.boolean (some true)]
    let given := [(b.and b).or a, b, any [b, a]]
    let q : Query := { table := t, dialect := .generic }
    let q := ((((q.narrow ((b.and b).or a)).limit 3).narrow b).orderBy "a" .ascending).narrow
      (any [b, a])
    let x := Mutation.delete { table := t, dialect := .mysql }
    let x := ((x.narrow ((b.and b).or a)).narrow b).allow.narrow (any [b, a])
    (Query.Reached given q ∧ Conjoins q.filter given) ∧
      (Mutation.Reached given true x ∧ Conjoins x.filter given) ∧
      (a.isEmpty = false ∧
        (a.and b).truth m t row = (a.truth m t row).and (b.truth m t row) ∧
        (a.or b).truth m t row = (a.truth m t row).or (b.truth m t row) ∧
        (a.chained [(.or, b), (.and, b)]).truth m t row =
          truthAfter m t row (a.truth m t row) [(.or, b), (.and, b)]) ∧
      ((b.and b).or a).truth m t row = .true ∧
      filterTruth m t row (effective q.filter) = .false := by
  intro t m row a b given q q' x x'
  have hQuery : Query.Reached given q' :=
    (((((Query.Reached.new t .generic).narrow _).limit 3).narrow b).orderBy "a" .ascending).narrow _
  have hMutation : Mutation.Reached given true x' :=
    ((((Mutation.Reached.newDelete t .mysql).narrow _).narrow b).allow).narrow _
  obtain ⟨hQueries, hMutations, hLinks⟩ := filters_conjoin m t row
  obtain ⟨hAnd, hOr, hChain⟩ := hLinks a rfl
  exact ⟨⟨hQuery, hQueries _ _ hQuery⟩, ⟨hMutation, hMutations _ _ _ hMutation⟩,
    ⟨rfl, hAnd b, hOr b, hChain _⟩, by decide +kernel, by decide +kernel⟩

end Condition

end SqlMapper
