import SqlMapper.Proofs.Lexis.Piece

/-! Placeholders and the values bound to them. The values of a statement are put into its tokens by
position where placeholders carry one, by their order otherwise. Both give every bound piece its
own value, because text and parameters come from one list of pieces. -/
namespace SqlMapper

namespace Token

def operand? {ν : Type} : Token ν → Option ν
  | operand v => some v
  | _ => none

/-- A token that is no placeholder, whatever stands for bound values. -/
def constant? {ν μ : Type} : Token ν → Option (Token μ)
  | word s => some (word s)
  | name s => some (name s)
  | number n => some (number n)
  | string s => some (string s)
  | mark s => some (mark s)
  | operand _ => none

end Token

namespace Partial

variable {d : Dialect}

def isSlot : Partial → Bool
  | question | dollar _ => true
  | _ => false

theorem isSlot_start {c : Char} (hDollar : c ≠ '$') (hQuestion : c ≠ '?') :
    (start d c).isSlot = false := by
  simp only [start, hDollar, hQuestion, if_false]
  repeat' split
  all_goals rfl

theorem isSlot_extend {p q : Partial} {c : Char} (hp : p.isSlot = false)
    (h : p.extend d c = some q) : q.isSlot = false := by
  cases p <;> simp only [extend, isSlot, Option.ite_none_right_eq_some, Option.some.injEq,
    reduceCtorEq] at h hp
  all_goals grind [isSlot]

theorem operand?_of_mem_flush {p : Partial} (hp : p.isSlot = false) {t : Token Slot}
    (ht : t ∈ p.flush d) : t.operand? = none := by
  cases p <;> simp only [flush, isSlot, List.mem_singleton, List.not_mem_nil, reduceCtorEq] at ht hp
  all_goals subst ht
  case word ls => by_cases h : d.isReserved (String.ofList ls) = true <;> simp [h, Token.operand?]
  all_goals rfl

/-- Without the characters that begin placeholders there are none. -/
theorem operand?_of_mem_scan {p : Partial} (hp : p.isSlot = false) {cs : List Char}
    (hcs : ∀ c ∈ cs, c ≠ '$' ∧ c ≠ '?') {t : Token Slot} (ht : t ∈ scan d p cs) :
    t.operand? = none := by
  induction cs generalizing p with
  | nil => exact operand?_of_mem_flush hp ht
  | cons c cs ih =>
      obtain ⟨hDollar, hQuestion⟩ := hcs c (List.mem_cons_self ..)
      have hRest : ∀ c ∈ cs, c ≠ '$' ∧ c ≠ '?' := fun c hc => hcs c (List.mem_cons_of_mem _ hc)
      rw [scan_cons] at ht
      cases hExtend : p.extend d c with
      | some q =>
          rw [hExtend] at ht
          exact ih (isSlot_extend hp hExtend) hRest ht
      | none =>
          rw [hExtend] at ht
          rcases List.mem_append.mp ht with ht | ht
          · exact operand?_of_mem_flush hp ht
          · exact ih (isSlot_start hDollar hQuestion) hRest ht

end Partial

/-- A fixed text has no placeholder in it. -/
theorem operand?_of_mem_tokens {d : Dialect} {s : String} (hClear : (Piece.text s).isClear = true)
    {t : Token Slot} (ht : t ∈ d.tokens s) : t.operand? = none := by
  refine Partial.operand?_of_mem_scan rfl (fun c hc => ?_) ht
  have hNot : c ∉ Piece.reserved := by simpa using List.all_eq_true.mp hClear c hc
  exact ⟨fun h => hNot (h ▸ by decide), fun h => hNot (h ▸ by decide)⟩

namespace Dialect

/-- The placeholders of a text from left to right. What stands inside quotes is none. -/
def placeholders (d : Dialect) (s : String) : List Slot := (d.tokens s).filterMap Token.operand?

end Dialect

namespace Sql

/-- The placeholders of a statement are numbered as its parameters, in the style of the dialect. -/
theorem operands_tokens (d : Dialect) {sql : Sql} (hClear : ∀ p ∈ sql, p.isClear = true)
    (position : Nat) :
    (sql.tokens d position).filterMap Token.operand? =
      (List.range' position sql.params.length).map d.slot := by
  induction sql generalizing position with
  | nil => rfl
  | cons p sql ih =>
      have hRest := fun position => ih (fun q hq => hClear q (List.mem_cons_of_mem _ hq)) position
      cases p with
      | text s =>
          have hNone := List.filterMap_eq_nil_iff.mpr fun t ht =>
            operand?_of_mem_tokens (d := d) (hClear _ (List.mem_cons_self ..)) (t := t) ht
          simp only [tokens, Piece.tokens, Piece.next, List.filterMap_append, params_text, hRest]
          rw [hNone, List.nil_append]
      | name s =>
          simp only [tokens, Piece.tokens, Piece.next, List.singleton_append, List.filterMap_cons,
            Token.operand?, params_name, hRest]
      | bind v t =>
          simp only [tokens, Piece.tokens, Piece.next, List.singleton_append, List.filterMap_cons,
            Token.operand?, params_bind, List.length_cons, List.range'_succ, List.map_cons, hRest]

/-- The placeholders of a statement are numbered from one on, or as many without a number. -/
theorem placeholders_render {d : Dialect} (hQuote : d.quote ∈ nameQuotes) {sql : Sql}
    (hSpaced : sql.Spaced) :
    d.placeholders (d.render sql) = (List.range' 1 sql.params.length).map d.slot := by
  rw [Dialect.placeholders, Dialect.render, tokens_letters hQuote hSpaced,
    operands_tokens d hSpaced.clear]

end Sql

/-- The value at a position, counted from one. -/
def valueAt (values : List Value) : Nat → Option Value
  | 0 => none
  | k + 1 => values[k]?

/-- The tokens with values in place of their placeholders. A placeholder without a position takes
the one behind its predecessor's, the first of them `position`. -/
def substituted (values : List Value) (position : Nat) :
    List (Token Slot) → Option (List (Token Value))
  | [] => some []
  | .operand slot :: ts => do
    let v ← valueAt values (slot.getD position)
    let rest ← substituted values (position + 1) ts
    return .operand v :: rest
  | t :: ts => do
    let t ← t.constant?
    let rest ← substituted values position ts
    return t :: rest

namespace Sql

/-- The tokens of the pieces, each bound value in its own place. -/
def filled (d : Dialect) : Sql → List (Token Value)
  | [] => []
  | .text s :: sql => (d.tokens s).filterMap Token.constant? ++ filled d sql
  | .name s :: sql => .name s :: filled d sql
  | .bind v _ :: sql => .operand v :: filled d sql

@[simp] theorem filled_append (d : Dialect) (a b : Sql) :
    filled d (a ++ b) = filled d a ++ filled d b := by
  induction a with
  | nil => rfl
  | cons p a ih => cases p <;> simp [filled, ih]

end Sql

/-- Values are put in from the left to the right. -/
theorem substituted_append (values : List Value) (position : Nat) {ts : List (Token Slot)}
    (hts : ∀ t ∈ ts, t.operand? = none) (us : List (Token Slot)) :
    substituted values position (ts ++ us) =
      (substituted values position us).map (ts.filterMap Token.constant? ++ ·) := by
  induction ts with
  | nil => simp
  | cons t ts ih =>
      have hRest := ih fun t ht => hts t (List.mem_cons_of_mem _ ht)
      have ht := hts t (List.mem_cons_self ..)
      cases t with
      | operand slot => simp [Token.operand?] at ht
      | word | name | number | string | mark =>
          simp only [List.cons_append, substituted, hRest, Token.constant?]
          cases substituted values position us <;> rfl

/-- Each placeholder of a statement takes the value of its own piece. -/
theorem substituted_tokens (d : Dialect) {sql : Sql} (hClear : ∀ p ∈ sql, p.isClear = true)
    (before : List Value) :
    substituted (before ++ sql.params.map Param.value) (before.length + 1)
      (sql.tokens d (before.length + 1)) = some (sql.filled d) := by
  induction sql generalizing before with
  | nil => rfl
  | cons p sql ih =>
      have hRest := fun before => ih (fun q hq => hClear q (List.mem_cons_of_mem _ hq)) before
      cases p with
      | text s =>
          have hNone := fun t => operand?_of_mem_tokens (d := d) (t := t)
            (hClear _ (List.mem_cons_self ..))
          simp only [Sql.tokens, Piece.tokens, Piece.next, Sql.params_text, Sql.filled]
          rw [substituted_append _ _ hNone, hRest]
          rfl
      | name s =>
          simp only [Sql.tokens, Piece.tokens, Piece.next, Sql.params_name, Sql.filled,
            List.singleton_append, substituted, hRest, Token.constant?]
          rfl
      | bind v t =>
          have hSlot :
              (d.slot (before.length + 1)).getD (before.length + 1) = before.length + 1 := by
            cases hNumbered : d.numbered <;> simp [Dialect.slot, hNumbered]
          have hValue :
              valueAt (before ++ v :: (Sql.params sql).map Param.value) (before.length + 1) =
              some v := by simp [valueAt]
          have hMore := hRest (before ++ [v])
          simp only [List.append_assoc, List.singleton_append, List.length_append,
            List.length_singleton] at hMore
          simp only [Sql.tokens, Piece.tokens, Piece.next, Sql.params_bind, Sql.filled,
            List.singleton_append, List.map_cons, substituted, hSlot, hValue, hMore]
          rfl

end SqlMapper
