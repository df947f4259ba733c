import SqlMapper.Proofs.Condition.Compiled
import SqlMapper.Proofs.Condition.Grammar
import SqlMapper.Proofs.Lexis.Operand

/-! The text of a condition, read by the precedence of SQL, says what its tree says from left to
right. Parentheses come around a part that is written already, whenever the link changes. So a part
is read at the level of its last link, and enclosing makes it primary again. -/
namespace SqlMapper

variable {d : Dialect}

/-! ### Fixed texts -/

namespace Operator

/-- The tokens in front of the first value. -/
def words : Operator → List (Token Slot)
  | equal => [.mark "="]
  | notEqual => [.mark "!="]
  | less => [.mark "<"]
  | lessEqual => [.mark "<="]
  | greater => [.mark ">"]
  | greaterEqual => [.mark ">="]
  | like => [.word "LIKE"]
  | notLike => [.word "NOT", .word "LIKE"]
  | between => [.word "BETWEEN"]
  | notBetween => [.word "NOT", .word "BETWEEN"]
  | isIn => [.word "IN", .mark "("]
  | notIn => [.word "NOT", .word "IN", .mark "("]
  | isNull => [.word "IS", .word "NULL"]
  | isNotNull => [.word "IS", .word "NOT", .word "NULL"]

/-- The words of an operator are tokens of their own. -/
theorem tokens_opening (hd : d ∈ Dialect.provided) (o : Operator) :
    d.tokens o.opening = o.words := by
  simp only [Dialect.provided, List.mem_cons, List.not_mem_nil, or_false] at hd
  rcases hd with rfl | rfl | rfl <;> cases o <;> decide +kernel

end Operator

/-- Parentheses and commas are tokens of their own. -/
theorem tokens_punctuation (hd : d ∈ Dialect.provided) :
    d.tokens "(" = [.mark "("] ∧ d.tokens ")" = [.mark ")"] ∧ d.tokens ", " = [.mark ","] := by
  simp only [Dialect.provided, List.mem_cons, List.not_mem_nil, or_false] at hd
  rcases hd with rfl | rfl | rfl <;> exact ⟨rfl, rfl, rfl⟩

/-- The words of links are tokens of their own. -/
theorem tokens_link (hd : d ∈ Dialect.provided) :
    d.tokens (Link.word .and) = [.word "AND"] ∧ d.tokens (Link.word .or) = [.word "OR"] := by
  simp only [Dialect.provided, List.mem_cons, List.not_mem_nil, or_false] at hd
  rcases hd with rfl | rfl | rfl <;> decide +kernel

/-- Parentheses stand around the tokens of what they enclose. -/
theorem filled_enclosed (hd : d ∈ Dialect.provided) (sql : Sql) :
    Sql.filled d (Sql.enclosed sql) = .mark "(" :: Sql.filled d sql ++ [.mark ")"] := by
  obtain ⟨hOpen, hClose, -⟩ := tokens_punctuation hd
  simp [Sql.enclosed, Sql.filled, hOpen, hClose, Token.constant?]

/-- A list of placeholders has the values between commas. -/
theorem filled_list (hd : d ∈ Dialect.provided) (sqlType : String) (values : List Value) :
    Sql.filled d (Sql.joined ", " (values.map fun v => [.bind v sqlType])) = listed values := by
  induction values with
  | nil => rfl
  | cons v vs ih =>
      cases vs with
      | nil => rfl
      | cons w ws =>
          have hComma := (tokens_punctuation hd).2.2
          simp only [List.map_cons, Sql.joined, Sql.filled, List.cons_append, List.nil_append,
            hComma, List.filterMap_cons, Token.constant?, List.filterMap_nil, listed] at ih ⊢
          rw [ih]

/-! ### Comparisons -/

namespace Operator

/-- The tokens of the values and of what stands between and behind them. -/
def arguments : Operator → List Value → List (Token Value)
  | isNull, _ | isNotNull, _ => []
  | isIn, vs | notIn, vs => listed vs ++ [.mark ")"]
  | between, [low, high] | notBetween, [low, high] => [.operand low, .word "AND", .operand high]
  | _, vs => vs.map .operand

/-- The tokens of the comparison, `x` being left out. -/
def test (o : Operator) (values : List Value) : List (Token Value) :=
  o.words.filterMap Token.constant? ++ o.arguments values

/-- The comparison is a test that finds what it means. -/
theorem isTest_test {o : Operator} {values : List Value} (hFits : o.Fits values) (x : String) :
    ∃ f, IsTest x (o.test values) f ∧ ∀ m row, f.truth m row = o.truth m (row x) values := by
  cases o with
  | equal =>
      obtain ⟨v, rfl⟩ := hFits
      exact ⟨_, .compare .equal v, fun _ _ => rfl⟩
  | notEqual =>
      obtain ⟨v, rfl⟩ := hFits
      exact ⟨_, .compare .notEqual v, fun _ _ => rfl⟩
  | less =>
      obtain ⟨v, rfl⟩ := hFits
      exact ⟨_, .compare .less v, fun _ _ => rfl⟩
  | lessEqual =>
      obtain ⟨v, rfl⟩ := hFits
      exact ⟨_, .compare .lessEqual v, fun _ _ => rfl⟩
  | greater =>
      obtain ⟨v, rfl⟩ := hFits
      exact ⟨_, .compare .greater v, fun _ _ => rfl⟩
  | greaterEqual =>
      obtain ⟨v, rfl⟩ := hFits
      exact ⟨_, .compare .greaterEqual v, fun _ _ => rfl⟩
  | like =>
      obtain ⟨v, rfl⟩ := hFits
      exact ⟨_, .compare .like v, fun _ _ => rfl⟩
  | notLike =>
      obtain ⟨v, rfl⟩ := hFits
      exact ⟨_, .notLike v, fun _ _ => rfl⟩
  | between =>
      obtain ⟨low, high, rfl⟩ := hFits
      exact ⟨_, .between low high, fun _ _ => rfl⟩
  | notBetween =>
      obtain ⟨low, high, rfl⟩ := hFits
      exact ⟨_, .notBetween low high, fun _ _ => rfl⟩
  | isIn =>
      obtain ⟨v, vs, rfl⟩ := List.exists_cons_of_ne_nil hFits
      exact ⟨_, .member v vs, fun _ _ => rfl⟩
  | notIn =>
      obtain ⟨v, vs, rfl⟩ := List.exists_cons_of_ne_nil hFits
      exact ⟨_, .notMember v vs, fun _ _ => rfl⟩
  | isNull => exact ⟨_, .missing, fun _ _ => rfl⟩
  | isNotNull => exact ⟨_, .notMissing, fun _ _ => rfl⟩

end Operator

namespace Predicate

/-- The tokens of a comparison, with its values in place, are those of its test. -/
theorem filled_comparison (hd : d ∈ Dialect.provided) {o : Operator} {values : List Value}
    (hFits : o.Fits values) (sqlType : String) :
    Sql.filled d (comparison o sqlType values) = o.test values := by
  have hWords := Operator.tokens_opening hd o
  obtain ⟨-, hClose, -⟩ := tokens_punctuation hd
  have hAnd : d.tokens " AND " = [.word "AND"] := (tokens_link hd).1
  rw [comparison_eq, List.cons_append, Sql.filled, hWords, Sql.filled_append, Operator.test]
  congr 1
  cases o with
  | isNull | isNotNull => rfl
  | isIn | notIn =>
      simp [Operator.operands, Operator.arguments, Operator.separator, Operator.closing,
        filled_list hd, Sql.filled, hClose, Token.constant?]
  | between | notBetween =>
      obtain ⟨low, high, rfl⟩ := hFits
      simp [Operator.operands, Operator.arguments, Operator.separator, Operator.closing, Sql.joined,
        Sql.filled, hAnd, Token.constant?]
  | equal | notEqual | less | lessEqual | greater | greaterEqual | like | notLike =>
      obtain ⟨v, rfl⟩ := hFits
      rfl

end Predicate

/-! ### Trees -/

namespace Condition

/-- The level at which a text is read whose last link is the given one. -/
def levelBehind : Option Link → Level
  | none => .primary
  | some .and => .conjunction
  | some .or => .disjunction

/-- Members are taken in from the left to the right. -/
theorem truthAfter_append (m : Comparisons) (t : Table) (row : Cells) (left : Truth)
    (xs ys : List (Link × Condition)) :
    truthAfter m t row left (xs ++ ys) = truthAfter m t row (truthAfter m t row left xs) ys := by
  induction xs generalizing left with
  | nil => simp [truthAfter]
  | cons child xs ih =>
      obtain ⟨link, c⟩ := child
      simp only [List.cons_append, truthAfter]
      exact ih _

/-- A child at the end of a group is joined to all that stands before it. -/
theorem truth_concat (m : Comparisons) (t : Table) (row : Cells)
    {seen : List (Link × Condition)} (hSeen : seen ≠ []) (link : Link) (c : Condition) :
    truth m t row (group (seen ++ [(link, c)])) =
      link.join (truth m t row (group seen)) (truth m t row c) := by
  cases seen with
  | nil => exact absurd rfl hSeen
  | cons child rest =>
      obtain ⟨_, first⟩ := child
      simp [truth, truthAfter_append, truthAfter]

/-- A text becomes primary between parentheses, and is so already where a child gets none. -/
theorem reads_asChild (hd : d ∈ Dialect.provided) {c : Condition} {sql : Sql} {f : Formula}
    (h : Reads (levelBehind c.lastLink) (sql.filled d) f) :
    Reads .primary (Sql.filled d (c.asChild sql)) f := by
  have hCompound := isCompound_iff c
  rw [asChild, Sql.enclosedIf]
  cases hLast : c.lastLink with
  | none =>
      rw [if_neg (by simp [hCompound, hLast])]
      rwa [hLast] at h
  | some link =>
      rw [if_pos (by simp [hCompound, hLast]), filled_enclosed hd]
      rw [hLast] at h
      cases link with
      | and => exact .enclosed (.term h)
      | or => exact .enclosed h

/-- What is written goes between parentheses exactly when the next link would read it otherwise. -/
theorem reads_regrouped (hd : d ∈ Dialect.provided) {previous : Option Link} {sql : Sql}
    {f : Formula} (h : Reads (levelBehind previous) (sql.filled d) f) (link : Link) :
    Reads (levelBehind (some link)) (Sql.filled d (regrouped previous link sql)) f := by
  match previous, link with
  | none, _ => exact h.loosen _
  | some .and, .and | some .or, .or => exact h
  | some .and, .or =>
      rw [show regrouped (some .and) .or sql = Sql.enclosed sql from rfl, filled_enclosed hd]
      exact (Reads.enclosed (.term h)).loosen _
  | some .or, .and =>
      rw [show regrouped (some .or) .and sql = Sql.enclosed sql from rfl, filled_enclosed hd]
      exact (Reads.enclosed h).loosen _

namespace Written

variable {t : Table} {operation : Operation} {c : Condition} {sql : Sql}

/-- A written condition is read as its tree, at the level of its last link. -/
theorem reads (hd : d ∈ Dialect.provided) (h : Written d t operation c sql) :
    ∃ f, Reads (levelBehind c.lastLink) (sql.filled d) f ∧
      ∀ m row, f.truth m row = c.truth m t row := by
  induction h with
  | @leaf p sql h =>
      obtain ⟨column, o, sqlType, hFind, hFor, -, rfl⟩ := Predicate.sql_eq_ok_iff.mp h
      obtain ⟨rfl, hFits⟩ := Predicate.eq_meant_of_forValues hFor
      obtain ⟨f, hTest, hTruth⟩ := Operator.isTest_test hFits column.name
      refine ⟨f, ?_, fun m row => ?_⟩
      · rw [Sql.filled, Predicate.filled_comparison hd hFits]
        exact .test hTest
      · rw [hTruth, truth, Predicate.truth, hFind]
  | @first link c sql h ih =>
      obtain ⟨f, hReads, hTruth⟩ := ih
      exact ⟨f, reads_asChild hd hReads, fun m row => by rw [hTruth, truth, truthAfter]⟩
  | @next seen link c left right hSeen hLeft hRight ihLeft ihRight =>
      obtain ⟨f, hf, hfTruth⟩ := ihLeft
      obtain ⟨g, hg, hgTruth⟩ := ihRight
      have hBefore := reads_regrouped hd hf link
      have hChild := reads_asChild hd hg
      obtain ⟨hAnd, hOr⟩ := tokens_link hd
      rw [lastLink_concat hSeen, Sql.filled_append, Sql.filled]
      cases link with
      | and =>
          refine ⟨.and f g, ?_, fun m row => ?_⟩
          · rw [hAnd]
            exact .and hBefore hChild
          · rw [truth_concat m t row hSeen, ← hfTruth, ← hgTruth]
            rfl
      | or =>
          refine ⟨.or f g, ?_, fun m row => ?_⟩
          · rw [hOr]
            exact .or hBefore (.factor hChild)
          · rw [truth_concat m t row hSeen, ← hfTruth, ← hgTruth]
            rfl

end Written

/-- The text of a compiled condition has one reading, and that finds in every row what the tree
finds from left to right. The values bound before it are `recorded`. -/
theorem reads_leftToRight (hd : d ∈ Dialect.provided) {t : Table} {operation : Operation}
    {c : Condition} {sql : Sql} (h : c.sql d t operation = .ok sql) (recorded : List Param) :
    ∃ ts f,
      substituted ((recorded ++ sql.params).map Param.value) (recorded.length + 1)
        (d.tokens (String.join (d.letters (recorded.length + 1) sql))) = some ts ∧
      (∀ g, Reads .disjunction ts g ↔ g = f) ∧
      ∀ m row, f.truth m row = c.truth m t row := by
  have hWritten := written_of_sql c h
  obtain ⟨f, hReads, hTruth⟩ := hWritten.reads hd
  have hSpaced := hWritten.spaced
  have hWhole : Reads .disjunction (sql.filled d) f := by
    cases hLast : c.lastLink with
    | none =>
        rw [hLast] at hReads
        exact hReads.loosen _
    | some link =>
        rw [hLast] at hReads
        cases link with
        | and => exact .term hReads
        | or => exact hReads
  refine ⟨sql.filled d, f, ?_, fun g => ?_, hTruth⟩
  · have hFilled := substituted_tokens d hSpaced.clear (recorded.map Param.value)
    rw [List.length_map] at hFilled
    rw [Sql.tokens_letters (quote_mem_of_provided hd) hSpaced, List.map_append, hFilled]
  · constructor
    · exact fun hOther => hOther.unique hWhole
    · rintro rfl
      exact hWhole

/-- Links that change and change back, a range, a test for NULL and a group of one child, on columns
whose names need quotes. -/
theorem reads_leftToRight_mixed :
    let t : Table :=
      { name := "t", columns := [.ofTy "a ? AND" .boolean, .ofTy "or" .boolean] }
    let c := group [(.or, compare "a ? AND" .equal [.null]),
      (.and, compare "or" .between [.boolean (some false), .boolean (some true)]),
      (.or, group [(.and, any [compare "or" .isIn [.boolean (some true)],
        compare "or" .like [.text (some "' OR $1")]])]),
      (.and, compare "a ? AND" .less [.boolean (some true)])]
    let recorded : List Param := [⟨.text (some "new"), "TEXT"⟩]
    ∃ sql, c.sql .mysql t .update = .ok sql ∧
      String.join (Dialect.mysql.letters (recorded.length + 1) sql) =
        "((`a ? AND` IS NULL AND `or` BETWEEN ? AND ?) OR (`or` IN (?) OR `or` LIKE ?)) AND " ++
          "`a ? AND` < ?" ∧
      ∃ ts f,
        substituted ((recorded ++ sql.params).map Param.value) (recorded.length + 1)
          (Dialect.mysql.tokens (String.join (Dialect.mysql.letters (recorded.length + 1) sql))) =
            some ts ∧
        (∀ g, Reads .disjunction ts g ↔ g = f) ∧ ∀ m row, f.truth m row = c.truth m t row := by
  intro t c recorded
  have hSql : c.sql .mysql t .update = .ok _ := rfl
  refine ⟨_, hSql, by decide +kernel, reads_leftToRight (by simp [Dialect.provided]) hSql recorded⟩

end Condition

end SqlMapper
