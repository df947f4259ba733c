import SqlMapper.Proofs.Refusal.Statement
import SqlMapper.Proofs.Statement.Placeholder

/-! What becomes of NULL in a condition. As its only value it turns equality into a test, and every
other comparison is refused with it; among several values it passes. That is decided for each
comparison by itself: the tree neither binds a value nor refuses a comparison of its own accord. -/
namespace SqlMapper

namespace Operator

/-- The words for equality with NULL. -/
def nullTest? : Operator → Option String
  | equal => some " IS NULL"
  | notEqual => some " IS NOT NULL"
  | _ => none

/-- Several values are taken as they are, if they are as many as the comparison takes. -/
theorem forValues_several {operator o : Operator} {v w : Value} {rest : List Value} :
    operator.forValues (v :: w :: rest) = .ok o ↔
      o = operator ∧
        (operator.arity = none ∨ operator.arity = some (v :: w :: rest).length) := by
  unfold forValues
  cases operator.arity with
  | none => simp [eq_comm]
  | some n =>
      by_cases hCount : (v :: w :: rest).length = n
      · subst hCount
        simp [eq_comm]
      · simp only [ne_eq, hCount, not_false_eq_true, if_true, reduceCtorEq, Option.some.injEq,
          Ne.symm hCount, or_self, and_false]

end Operator

namespace Predicate

/-- Some value of the comparison is missing. -/
def HasNull (p : Predicate) : Prop := ∃ v ∈ p.values, v.isNull = true

/-- A missing value stands among several, in a list or in bounds. -/
structure BindsNull (p : Predicate) : Prop where
  several : 2 ≤ p.values.length
  taken : p.operator.arity = none ∨ p.operator.arity = some p.values.length
  missing : p.HasNull

/-- The column of the comparison is known, and it has a type in the database if the comparison can
be written at all. -/
def Placed (d : Dialect) (t : Table) (p : Predicate) : Prop :=
  ∃ k, t.find? p.column = some k ∧
    ∀ o, p.operator.forValues p.values = .ok o → ∃ type, d.columnType t.name k = .ok type

variable {d : Dialect} {t : Table} {operation : Operation} {p : Predicate} {o : Operator}

theorem BindsNull.arity_ne (h : p.BindsNull) {n : Nat} (hn : n < 2) : p.operator.arity ≠ some n := by
  intro hArity
  have hSeveral := h.several
  rcases h.taken with hNone | hCount
  · rw [hNone] at hArity
    cases hArity
  · rw [hCount, Option.some.injEq] at hArity
    omega

theorem BindsNull.nullTest?_eq_none (h : p.BindsNull) : p.operator.nullTest? = none := by
  have hArity := h.arity_ne (n := 1) (by decide)
  cases hOperator : p.operator with
  | equal | notEqual => exact absurd (by rw [hOperator]; rfl) hArity
  | _ => rfl

/-- A comparison that binds a NULL binds all of its values. -/
theorem BindsNull.operands_eq (h : p.BindsNull) : p.operator.operands p.values = p.values := by
  have hArity := h.arity_ne (n := 0) (by decide)
  cases hOperator : p.operator with
  | isNull | isNotNull => exact absurd (by rw [hOperator]; rfl) hArity
  | _ => rfl

/-- A comparison that is accepted with NULL binds it among others or becomes a test. -/
theorem HasNull.cases (h : p.HasNull) (hFor : p.operator.forValues p.values = .ok o) :
    p.BindsNull ∧ o = p.operator ∨
      ∃ text, p.operator.nullTest? = some text ∧ o.operands p.values = [] ∧
        ∀ sqlType, comparison o sqlType p.values = [.text text] := by
  obtain ⟨column, operator, values⟩ := p
  rcases values with _ | ⟨v, _ | ⟨w, rest⟩⟩
  · obtain ⟨v, hv, -⟩ := h
    cases hv
  · have hNull : v.isNull = true := by
      obtain ⟨w, hw, hNull⟩ := h
      rwa [← List.mem_singleton.mp hw]
    refine .inr ?_
    cases operator <;> simp [Operator.forValues, Operator.arity, hNull] at hFor <;> subst hFor
    · exact ⟨_, rfl, rfl, fun _ => rfl⟩
    · exact ⟨_, rfl, rfl, fun _ => rfl⟩
  · obtain ⟨hSame, hTaken⟩ := Operator.forValues_several.mp hFor
    exact .inl ⟨⟨by simp, hTaken, h⟩, hSame⟩

/-- Only values of the comparison are bound. -/
theorem mem_values_of_mem_operands {v : Value} (h : v ∈ o.operands p.values) : v ∈ p.values := by
  cases o with
  | isNull | isNotNull => cases h
  | _ => exact h

variable {sql : Sql}

/-- NULL is bound only among several values, and then it is. -/
theorem null_param_iff (h : p.sql d t operation = .ok sql) :
    (∃ b ∈ sql.params, b.value.isNull = true) ↔ p.BindsNull := by
  obtain ⟨k, o, sqlType, -, hFor, -, rfl⟩ := sql_eq_ok_iff.mp h
  have hParams : (∃ b ∈ Sql.params (.name k.name :: comparison o sqlType p.values),
      b.value.isNull = true) ↔ ∃ v ∈ o.operands p.values, v.isNull = true := by
    simp [params_comparison]
  rw [hParams]
  constructor
  · rintro ⟨v, hv, hNull⟩
    rcases HasNull.cases ⟨v, mem_values_of_mem_operands hv, hNull⟩ hFor with
      ⟨hBinds, -⟩ | ⟨text, -, hNone, -⟩
    · exact hBinds
    · rw [hNone] at hv
      cases hv
  · intro hBinds
    rcases hBinds.missing.cases hFor with ⟨-, rfl⟩ | ⟨text, hTest, -⟩
    · rw [hBinds.operands_eq]
      exact hBinds.missing
    · rw [hBinds.nullTest?_eq_none] at hTest
      cases hTest

/-- A comparison with NULL that compiles and does not bind it is a test. -/
theorem sql_eq_test (h : p.sql d t operation = .ok sql) (hNull : p.HasNull)
    (hBinds : ¬ p.BindsNull) :
    ∃ k text, t.find? p.column = some k ∧ p.operator.nullTest? = some text ∧
      sql = [.name k.name, .text text] := by
  obtain ⟨k, o, sqlType, hFind, hFor, -, rfl⟩ := sql_eq_ok_iff.mp h
  rcases hNull.cases hFor with ⟨hSome, -⟩ | ⟨text, hTest, -, hText⟩
  · exact absurd hSome hBinds
  · exact ⟨k, text, hFind, hTest, by rw [hText]⟩

/-- A comparison with nothing wrong about its column can only be malformed. -/
theorem sql_fails_of_placed (hPlaced : p.Placed d t) :
    Result.FailsAs (fun f => ∃ column reason, f = .compile ⟨operation, t.name, column⟩ reason)
      (p.sql d t operation) := by
  obtain ⟨k, hFind, hType⟩ := hPlaced
  rw [Predicate.sql, Table.column_of_find? hFind]
  refine .bind (.ok k) fun k' hk => ?_
  obtain rfl := Except.ok.inj hk
  cases hFor : p.operator.forValues p.values with
  | error reason => exact .error ⟨some k.name, reason, rfl⟩
  | ok o =>
      obtain ⟨type, hType⟩ := hType o hFor
      rw [hType]
      exact .ok _

end Predicate

namespace Condition

variable {d : Dialect} {t : Table} {operation : Operation} {c : Condition} {sql : Sql}

/-- What is bound of a condition is bound by its comparisons. -/
theorem Written.null_param_iff (h : Written d t operation c sql) :
    (∃ b ∈ sql.params, b.value.isNull = true) ↔ ∃ p ∈ c.leaves, p.BindsNull := by
  induction h with
  | leaf h => simpa [leaves] using Predicate.null_param_iff h
  | first h ih =>
      rw [asChild, Sql.params_enclosedIf]
      simpa [leaves, leavesOf] using ih
  | next hSeen hLeft hRight ihLeft ihRight =>
      rw [leaves_concat, Sql.params_append, Sql.params_text, regrouped, asChild,
        Sql.params_enclosedIf, Sql.params_enclosedIf]
      simp only [List.mem_append, or_and_right, exists_or, ihLeft, ihRight]

/-- What becomes of NULL in a condition. Where the condition compiles, NULL is bound exactly by the
comparisons that take several values and have it among them, and every other comparison with NULL is
one for equality and stands as a test in the text. Any other comparison with NULL is refused, and the
whole condition with it, as malformed if nothing is wrong about a column. -/
theorem null_bound_tested_or_refused (d : Dialect) (t : Table) (operation : Operation)
    (c : Condition) :
    (∀ sql, c.sql d t operation = .ok sql →
      ((∃ b ∈ sql.params, b.value.isNull = true) ↔ ∃ p ∈ c.leaves, p.BindsNull) ∧
      ∀ p ∈ c.leaves, p.HasNull → ¬ p.BindsNull →
        ∃ k text, t.find? p.column = some k ∧ p.operator.nullTest? = some text ∧
          [.name k.name, .text text] <:+: sql) ∧
    ∀ p ∈ c.leaves, p.HasNull → p.operator.nullTest? = none → ¬ p.BindsNull →
      ∃ f, c.sql d t operation = .error f ∧
        ((∀ q ∈ c.leaves, q.Placed d t) →
          ∃ column reason, f = .compile ⟨operation, t.name, column⟩ reason) := by
  have hTested {sql : Sql} (hSql : c.sql d t operation = .ok sql) {p : Predicate}
      (hp : p ∈ c.leaves) (hNull : p.HasNull) (hBinds : ¬ p.BindsNull) :
      ∃ k text, t.find? p.column = some k ∧ p.operator.nullTest? = some text ∧
        [.name k.name, .text text] <:+: sql := by
    obtain ⟨part, hPart, hInfix⟩ := Written.leaf_infix (written_of_sql c hSql) hp
    obtain ⟨k, text, hFind, hTest, rfl⟩ := Predicate.sql_eq_test hPart hNull hBinds
    exact ⟨k, text, hFind, hTest, hInfix⟩
  refine ⟨fun sql hSql => ⟨(written_of_sql c hSql).null_param_iff, ?_⟩, ?_⟩
  · intro p hp hNull hBinds
    exact hTested hSql hp hNull hBinds
  · intro p hp hNull hOther hBinds
    cases hSql : c.sql d t operation with
    | ok sql =>
        obtain ⟨k, text, -, hTest, -⟩ := hTested hSql hp hNull hBinds
        rw [hOther] at hTest
        cases hTest
    | error f =>
        refine ⟨f, rfl, fun hPlaced => ?_⟩
        exact sql_fails_of_leaves ⟨none, .emptyGroup, rfl⟩ c
          (fun q hq => Predicate.sql_fails_of_placed (hPlaced q hq)) f hSql

/-- A test and a list with NULL in it are written; a pattern that is missing is refused, also behind
them. -/
theorem null_bound_tested_or_refused_list :
    let t : Table := { name := "t", columns := [.ofTy "a" .boolean, .ofTy "b" .text] }
    let listed : Predicate := ⟨"a", .notIn, [.boolean none, .null]⟩
    let tested : Predicate := ⟨"B", .notEqual, [.text none]⟩
    let refused : Predicate := ⟨"b", .like, [.null]⟩
    let c := (leaf tested).or (leaf listed)
    (∃ sql, c.sql .generic t .query = .ok sql ∧
      ((∃ b ∈ sql.params, b.value.isNull = true) ↔ ∃ p ∈ c.leaves, p.BindsNull) ∧
      (tested ∈ c.leaves ∧ tested.HasNull ∧ ¬ tested.BindsNull ∧
        ∃ k text, t.find? tested.column = some k ∧ tested.operator.nullTest? = some text ∧
          [.name k.name, .text text] <:+: sql)) ∧
    (refused ∈ (c.and (leaf refused)).leaves ∧ refused.HasNull ∧
      refused.operator.nullTest? = none ∧ ¬ refused.BindsNull ∧
      (∀ q ∈ (c.and (leaf refused)).leaves, q.Placed .generic t) ∧
      ∃ column reason, (c.and (leaf refused)).sql .generic t .query =
        .error (.compile ⟨.query, t.name, column⟩ reason)) := by
  intro t listed tested refused c
  have hTested : tested ∈ c.leaves := by simp [c, leaves, leavesOf, Condition.or, link]
  have hRefused : refused ∈ (c.and (leaf refused)).leaves := by
    simp [c, leaves, leavesOf, Condition.and, Condition.or, link]
  have hTestedNull : tested.HasNull := ⟨.text none, List.mem_singleton_self _, rfl⟩
  have hRefusedNull : refused.HasNull := ⟨.null, List.mem_singleton_self _, rfl⟩
  have hTestedSingle : ¬ tested.BindsNull := fun h => absurd h.several (by decide)
  have hRefusedSingle : ¬ refused.BindsNull := fun h => absurd h.several (by decide)
  have hPlaced : ∀ q ∈ (c.and (leaf refused)).leaves, q.Placed .generic t := by
    simp only [c, leaves, leavesOf, Condition.and, Condition.or, link, List.cons_append,
      List.nil_append, List.forall_mem_cons]
    have hFirst : t.find? "B" = some (.ofTy "b" .text) := rfl
    have hSecond : t.find? "a" = some (.ofTy "a" .boolean) := rfl
    have hThird : t.find? "b" = some (.ofTy "b" .text) := rfl
    exact ⟨⟨_, hFirst, fun _ _ => ⟨"TEXT", rfl⟩⟩, ⟨_, hSecond, fun _ _ => ⟨"BOOLEAN", rfl⟩⟩,
      ⟨_, hThird, fun _ _ => ⟨"TEXT", rfl⟩⟩, by simp⟩
  have hSql : ((compare "B" .notEqual [.text none]).or
      (compare "a" .notIn [.boolean none, .null])).sql .generic t .query = .ok _ := rfl
  obtain ⟨hParams, hTests⟩ := (null_bound_tested_or_refused .generic t .query c).1 _ hSql
  obtain ⟨f, hFailed, hMalformed⟩ :=
    (null_bound_tested_or_refused .generic t .query (c.and (leaf refused))).2 refused hRefused
      hRefusedNull rfl hRefusedSingle
  obtain ⟨column, reason, rfl⟩ := hMalformed hPlaced
  exact ⟨⟨_, hSql, hParams, hTested, hTestedNull, hTestedSingle,
      hTests tested hTested hTestedNull hTestedSingle⟩,
    hRefused, hRefusedNull, rfl, hRefusedSingle, hPlaced, column, reason, hFailed⟩

/-- NULL in a list of two and in the bounds of a range is bound, while in a list of its own it is
refused. -/
theorem null_bound_in_list :
    let t : Table := { name := "t", columns := [.ofTy "a" .boolean] }
    let listed := compare "a" .notIn [.boolean (some true), .boolean none]
    let ranged := compare "a" .between [.boolean (some true), .null]
    let alone := compare "a" .notIn [.boolean none]
    (∃ sql, listed.sql .generic t .query = .ok sql ∧ Dialect.generic.request sql =
      ⟨"a NOT IN ($1, $2)", [⟨.boolean (some true), "BOOLEAN"⟩, ⟨.boolean none, "BOOLEAN"⟩]⟩) ∧
    (∃ sql, ranged.sql .generic t .query = .ok sql ∧ Dialect.generic.request sql =
      ⟨"a BETWEEN $1 AND $2", [⟨.boolean (some true), "BOOLEAN"⟩, ⟨.null, "BOOLEAN"⟩]⟩) ∧
    alone.sql .generic t .query =
      .error (.compile ⟨.query, "t", some "a"⟩ (.comparesNull .notIn)) := by
  intro t listed ranged alone
  have hListed : listed.sql .generic t .query = .ok _ := rfl
  have hRanged : ranged.sql .generic t .query = .ok _ := rfl
  have hText {sql : Sql} {text : String} (h : Dialect.generic.render sql = text) :
      Dialect.generic.request sql = ⟨text, sql.params⟩ := by
    rw [Dialect.request, h]
  exact ⟨⟨_, hListed, hText (by decide +kernel)⟩, ⟨_, hRanged, hText (by decide +kernel)⟩, rfl⟩

end Condition

end SqlMapper
