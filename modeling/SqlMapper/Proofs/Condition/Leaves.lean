import SqlMapper.Proofs.Condition.Compiled

/-! The comparisons of a condition in the order in which they stand. Filters are merged without
losing or reordering any, and each of them stands in the text of a condition that compiles. -/
namespace SqlMapper

/-- Parentheses change nothing of what stands in them. -/
theorem Sql.infix_enclosedIf (needed : Bool) (sql : Sql) : sql <:+: Sql.enclosedIf needed sql := by
  cases needed with
  | false => exact List.infix_rfl
  | true => exact ⟨[.text "("], [.text ")"], rfl⟩

namespace Condition

mutual

/-- The comparisons, from left to right. -/
def leaves : Condition → List Predicate
  | leaf p => [p]
  | group children => leavesOf children

/-- The comparisons of several children. -/
def leavesOf : List (Link × Condition) → List Predicate
  | [] => []
  | (_, c) :: rest => leaves c ++ leavesOf rest

end

theorem leavesOf_append (xs ys : List (Link × Condition)) :
    leavesOf (xs ++ ys) = leavesOf xs ++ leavesOf ys := by
  induction xs with
  | nil => simp [leavesOf]
  | cons child xs ih =>
      obtain ⟨link, c⟩ := child
      simp [leavesOf, ih]

/-- One more member adds its comparisons behind the others. -/
theorem leaves_concat (seen : List (Link × Condition)) (link : Link) (c : Condition) :
    leaves (group (seen ++ [(link, c)])) = leaves (group seen) ++ c.leaves := by
  simp [leaves, leavesOf, leavesOf_append]

/-- A link joins the comparisons of both sides. -/
theorem leaves_link (c : Condition) (link : Link) (next : Condition) :
    (c.link link next).leaves = c.leaves ++ next.leaves := by
  match c with
  | leaf p => simp [Condition.link, leaves, leavesOf]
  | group [] => simp [Condition.link, leaves, leavesOf]
  | group (first :: rest) => exact leaves_concat (first :: rest) link next

/-- Joining leaves an empty group only where there was nothing on either side. -/
theorem isEmpty_link (c : Condition) (l : Link) (next : Condition) :
    (c.link l next).isEmpty = (c.isEmpty && next.isEmpty) := by
  match c with
  | leaf p => rfl
  | group [] => rfl
  | group (first :: rest) => rfl

def asked (filter : Option Condition) : List Predicate := filter.elim [] leaves

/-- A filter that is added loses no comparison, neither its own nor an earlier one. -/
theorem asked_added (filter : Option Condition) (c : Condition) :
    asked (added filter c) = asked filter ++ c.leaves := by
  cases filter with
  | none => simp [added, asked]
  | some f => exact leaves_link f .and c

/-- The filter that conditions leave, each of them added to those before it. -/
def merged (given : List Condition) : Option Condition := given.foldl added none

theorem merged_concat (given : List Condition) (c : Condition) :
    merged (given ++ [c]) = added (merged given) c :=
  List.foldl_concat ..

/-- Merging conditions loses none of their comparisons and adds none. -/
theorem asked_merged (given : List Condition) : asked (merged given) = given.flatMap leaves := by
  have hFrom (filter : Option Condition) :
      asked (given.foldl added filter) = asked filter ++ given.flatMap leaves := by
    induction given generalizing filter with
    | nil => simp
    | cons c given ih => simp [ih, asked_added]
  exact hFrom none

/-- A filter that is passed over has no comparisons. -/
theorem eq_none_or_of_effective {filter : Option Condition} (h : effective filter = none) :
    filter = none ∨ filter = some (group []) := by
  match filter with
  | none => exact .inl rfl
  | some (group []) => exact .inr rfl
  | some (leaf p) => simp [effective, isEmpty] at h
  | some (group (first :: rest)) => simp [effective, isEmpty] at h

/-- Leaving out empty conditions loses no comparison. -/
theorem asked_effective (filter : Option Condition) : asked (effective filter) = asked filter := by
  cases hEffective : effective filter with
  | none =>
      rcases eq_none_or_of_effective hEffective with rfl | rfl
      · rfl
      · simp [asked, leaves, leavesOf]
  | some c =>
      have hFilter : filter = some c := (Option.filter_eq_some_iff.mp hEffective).1
      rw [hFilter]

namespace Written

variable {d : Dialect} {t : Table} {operation : Operation} {c : Condition} {sql : Sql}

/-- Nothing without a comparison compiles. -/
theorem leaves_ne_nil (h : Written d t operation c sql) : c.leaves ≠ [] := by
  induction h with
  | leaf h => simp [leaves]
  | @first link c sql h ih => simpa [leaves, leavesOf] using ih
  | @next seen link c left right hSeen hLeft hRight ihLeft ihRight =>
      rw [leaves_concat]
      exact List.append_ne_nil_of_left_ne_nil ihLeft _

/-- Every comparison stands in the text as it would stand there alone. -/
theorem leaf_infix (h : Written d t operation c sql) {p : Predicate} (hp : p ∈ c.leaves) :
    ∃ part, p.sql d t operation = .ok part ∧ part <:+: sql := by
  induction h with
  | @leaf q sql h =>
      obtain rfl : p = q := by simpa [leaves] using hp
      exact ⟨sql, h, List.infix_rfl⟩
  | @first link c sql h ih =>
      obtain ⟨part, hPart, hInfix⟩ := ih (by simpa [leaves, leavesOf] using hp)
      exact ⟨part, hPart, hInfix.trans (Sql.infix_enclosedIf _ sql)⟩
  | @next seen link c left right hSeen hLeft hRight ihLeft ihRight =>
      rw [leaves_concat] at hp
      rcases List.mem_append.mp hp with hp | hp
      · obtain ⟨part, hPart, hInfix⟩ := ihLeft hp
        have hKept : part <:+: regrouped (group seen).lastLink link left :=
          hInfix.trans (Sql.infix_enclosedIf _ left)
        exact ⟨part, hPart, hKept.trans (List.prefix_append _ _).isInfix⟩
      · obtain ⟨part, hPart, hInfix⟩ := ihRight hp
        have hKept : part <:+: c.asChild right := hInfix.trans (Sql.infix_enclosedIf _ right)
        have hBehind := (List.suffix_cons (.text link.word) (c.asChild right)).trans
          (List.suffix_append (regrouped (group seen).lastLink link left) _)
        exact ⟨part, hPart, hKept.trans hBehind.isInfix⟩

end Written

end Condition

end SqlMapper
