import SqlMapper.Proofs.Condition.Truth
import SqlMapper.Proofs.Lexis.Token

/-! The grammar of search conditions: `AND` binds tighter than `OR`, both group to the left, and
`x BETWEEN p AND q` is one test whose `AND` links nothing. The grammar is a relation between tokens
and formulas. A stack reader shows that it is unambiguous, which is all the reader is for. -/
namespace SqlMapper

/-- What a search condition says. Columns stand under the names that are read. -/
inductive Formula where
  | compare (c : Comparator) (column : String) (v : Value)
  | between (column : String) (low high : Value)
  | member (column : String) (items : List Value)
  | missing (column : String)
  | not (f : Formula)
  | and (f g : Formula)
  | or (f g : Formula)

namespace Formula

def truth (m : Comparisons) (row : Cells) : Formula → Truth
  | compare c x v => m c (row x) v
  | between x low high => m.within (row x) low high
  | member x items => m.among (row x) items
  | missing x => .ofBool (row x).isNull
  | not f => (f.truth m row).not
  | and f g => (f.truth m row).and (g.truth m row)
  | or f g => (f.truth m row).or (g.truth m row)

end Formula

namespace Comparator

def token : Comparator → Token Value
  | equal => .mark "="
  | notEqual => .mark "!="
  | less => .mark "<"
  | lessEqual => .mark "<="
  | greater => .mark ">"
  | greaterEqual => .mark ">="
  | like => .word "LIKE"

end Comparator

def listed : List Value → List (Token Value)
  | [] => []
  | [v] => [.operand v]
  | v :: vs => .operand v :: .mark "," :: listed vs

/-- What may stand behind the name of a column, and what it says of the column. -/
inductive IsTest (x : String) : List (Token Value) → Formula → Prop where
  | compare (c : Comparator) (v : Value) : IsTest x [c.token, .operand v] (.compare c x v)
  | notLike (v : Value) :
      IsTest x [.word "NOT", .word "LIKE", .operand v] (.not (.compare .like x v))
  | between (low high : Value) :
      IsTest x [.word "BETWEEN", .operand low, .word "AND", .operand high] (.between x low high)
  | notBetween (low high : Value) :
      IsTest x [.word "NOT", .word "BETWEEN", .operand low, .word "AND", .operand high]
        (.not (.between x low high))
  | member (v : Value) (vs : List Value) :
      IsTest x (.word "IN" :: .mark "(" :: listed (v :: vs) ++ [.mark ")"]) (.member x (v :: vs))
  | notMember (v : Value) (vs : List Value) :
      IsTest x (.word "NOT" :: .word "IN" :: .mark "(" :: listed (v :: vs) ++ [.mark ")"])
        (.not (.member x (v :: vs)))
  | missing : IsTest x [.word "IS", .word "NULL"] (.missing x)
  | notMissing : IsTest x [.word "IS", .word "NOT", .word "NULL"] (.not (.missing x))

/-- How tight a part of a condition binds. -/
inductive Level where
  | primary
  | conjunction
  | disjunction
  deriving DecidableEq, Repr

/-- The tokens form a condition of the level, which says the formula. -/
inductive Reads : Level → List (Token Value) → Formula → Prop where
  | test {x : String} {ts : List (Token Value)} {f : Formula} (h : IsTest x ts f) :
      Reads .primary (.name x :: ts) f
  | enclosed {ts : List (Token Value)} {f : Formula} (h : Reads .disjunction ts f) :
      Reads .primary (.mark "(" :: ts ++ [.mark ")"]) f
  | factor {ts : List (Token Value)} {f : Formula} (h : Reads .primary ts f) :
      Reads .conjunction ts f
  | and {ts us : List (Token Value)} {f g : Formula} (left : Reads .conjunction ts f)
      (right : Reads .primary us g) : Reads .conjunction (ts ++ .word "AND" :: us) (.and f g)
  | term {ts : List (Token Value)} {f : Formula} (h : Reads .conjunction ts f) :
      Reads .disjunction ts f
  | or {ts us : List (Token Value)} {f g : Formula} (left : Reads .disjunction ts f)
      (right : Reads .conjunction us g) : Reads .disjunction (ts ++ .word "OR" :: us) (.or f g)

/-! ### The stack reader -/

/-- A test whose end has not been read, `x` being its column. -/
inductive Open where
  | column (x : String)
  | not (x : String)
  | compared (c : Comparator) (negated : Bool) (x : String)
  | between (negated : Bool) (x : String)
  | betweenLow (negated : Bool) (x : String) (low : Value)
  | betweenAnd (negated : Bool) (x : String) (low : Value)
  | member (negated : Bool) (x : String)
  | items (negated : Bool) (x : String) (items : List Value)
  | is (x : String)
  | isNot (x : String)

/-- What has been read inside one pair of parentheses: all before the last `OR`, and the
conjunction since. -/
structure Pending where
  alternatives : Option Formula := none
  factors : Option Formula := none

namespace Pending

def operand (p : Pending) (f : Formula) : Pending :=
  { p with factors := some (p.factors.elim f (.and · f)) }

/-- The formula of all that has been read. -/
def whole (p : Pending) : Option Formula :=
  match p.alternatives, p.factors with
  | some f, some g => some (.or f g)
  | some f, none => some f
  | none, g => g

end Pending

/-- The open parentheses, innermost first, and the open test. -/
structure Reader where
  stack : List Pending
  test : Option Open := none

namespace Reader

def negate (negated : Bool) (f : Formula) : Formula := if negated then .not f else f

def push (stack : List Pending) (f : Formula) : Option Reader :=
  match stack with
  | p :: ps => some { stack := p.operand f :: ps }
  | [] => none

/-- One token inside a test. -/
def stepTest (stack : List Pending) : Open → Token Value → Option Reader
  | .column x, .mark "=" => some ⟨stack, some (.compared .equal false x)⟩
  | .column x, .mark "!=" => some ⟨stack, some (.compared .notEqual false x)⟩
  | .column x, .mark "<" => some ⟨stack, some (.compared .less false x)⟩
  | .column x, .mark "<=" => some ⟨stack, some (.compared .lessEqual false x)⟩
  | .column x, .mark ">" => some ⟨stack, some (.compared .greater false x)⟩
  | .column x, .mark ">=" => some ⟨stack, some (.compared .greaterEqual false x)⟩
  | .column x, .word "LIKE" => some ⟨stack, some (.compared .like false x)⟩
  | .column x, .word "BETWEEN" => some ⟨stack, some (.between false x)⟩
  | .column x, .word "IN" => some ⟨stack, some (.member false x)⟩
  | .column x, .word "NOT" => some ⟨stack, some (.not x)⟩
  | .column x, .word "IS" => some ⟨stack, some (.is x)⟩
  | .not x, .word "LIKE" => some ⟨stack, some (.compared .like true x)⟩
  | .not x, .word "BETWEEN" => some ⟨stack, some (.between true x)⟩
  | .not x, .word "IN" => some ⟨stack, some (.member true x)⟩
  | .compared c negated x, .operand v => push stack (negate negated (.compare c x v))
  | .between negated x, .operand v => some ⟨stack, some (.betweenLow negated x v)⟩
  | .betweenLow negated x low, .word "AND" => some ⟨stack, some (.betweenAnd negated x low)⟩
  | .betweenAnd negated x low, .operand v => push stack (negate negated (.between x low v))
  | .member negated x, .mark "(" => some ⟨stack, some (.items negated x [])⟩
  | .items negated x vs, .operand v => some ⟨stack, some (.items negated x (vs ++ [v]))⟩
  | .items negated x vs, .mark "," => some ⟨stack, some (.items negated x vs)⟩
  | .items negated x vs, .mark ")" => push stack (negate negated (.member x vs))
  | .is x, .word "NULL" => push stack (.missing x)
  | .is x, .word "NOT" => some ⟨stack, some (.isNot x)⟩
  | .isNot x, .word "NULL" => push stack (.not (.missing x))
  | _, _ => none

/-- One token between tests. -/
def stepLink : List Pending → Token Value → Option Reader
  | stack, .name x => some ⟨stack, some (.column x)⟩
  | stack, .mark "(" => some ⟨{} :: stack, none⟩
  | p :: ps, .mark ")" => p.whole.bind (push ps)
  | stack, .word "AND" => some ⟨stack, none⟩
  | p :: ps, .word "OR" => some ⟨{ alternatives := p.whole } :: ps, none⟩
  | _, _ => none

def step (r : Reader) (token : Token Value) : Option Reader :=
  match r.test with
  | some test => stepTest r.stack test token
  | none => stepLink r.stack token

def run (r : Reader) (ts : List (Token Value)) : Option Reader := ts.foldlM step r

theorem run_cons (r : Reader) (t : Token Value) (ts : List (Token Value)) :
    run r (t :: ts) = (step r t).bind fun s => run s ts := by
  simp [run]

theorem run_append (r : Reader) (ts us : List (Token Value)) :
    run r (ts ++ us) = (run r ts).bind fun s => run s us := by
  simp [run]

/-- A list of values is read to its parenthesis. -/
theorem run_items (p : Pending) (ps : List Pending) (negated : Bool) (x : String)
    (before items : List Value) :
    run ⟨p :: ps, some (.items negated x before)⟩ (listed items ++ [.mark ")"]) =
      some ⟨p.operand (negate negated (.member x (before ++ items))) :: ps, none⟩ := by
  induction items generalizing before with
  | nil => simp [listed, step, stepTest, push, run]
  | cons v vs ih =>
      cases vs with
      | nil => simp [listed, step, stepTest, push, run]
      | cons w ws =>
          have hRest := ih (before ++ [v])
          rw [List.append_assoc] at hRest
          simpa [listed, run_cons, step, stepTest] using hRest

/-- A test behind the name of a column is read as the formula that it stands for. -/
theorem run_test {x : String} {ts : List (Token Value)} {f : Formula} (h : IsTest x ts f)
    (p : Pending) (ps : List Pending) :
    run ⟨p :: ps, none⟩ (.name x :: ts) = some ⟨p.operand f :: ps, none⟩ := by
  cases h with
  | compare c v => cases c <;> rfl
  | notLike v => rfl
  | between low high => rfl
  | notBetween low high => rfl
  | member v vs => exact run_items p ps false x [] (v :: vs)
  | notMember v vs => exact run_items p ps true x [] (v :: vs)
  | missing => rfl
  | notMissing => rfl

end Reader

namespace Level

open Reader

/-- What the reader does with the tokens of a formula. A conjunction is read where none has begun,
a disjunction behind an opening parenthesis. -/
def ReadAs (ts : List (Token Value)) (f : Formula) : Level → Prop
  | primary => ∀ p ps, run ⟨p :: ps, none⟩ ts = some ⟨p.operand f :: ps, none⟩
  | conjunction => ∀ p ps, p.factors = none →
      run ⟨p :: ps, none⟩ ts = some ⟨{ p with factors := some f } :: ps, none⟩
  | disjunction => ∀ ps, ∃ q : Pending,
      q.whole = some f ∧ run ⟨{} :: ps, none⟩ ts = some ⟨q :: ps, none⟩

end Level

namespace Reads

open Reader

variable {level : Level} {ts : List (Token Value)} {f g : Formula}

/-- What follows the grammar is read as it says. -/
theorem readAs (h : Reads level ts f) : level.ReadAs ts f := by
  induction h with
  | test h => exact run_test h
  | @enclosed ts f h ih =>
      intro p ps
      obtain ⟨q, hWhole, hRun⟩ := ih (p :: ps)
      rw [List.cons_append, run_cons]
      change run ⟨{} :: p :: ps, none⟩ (ts ++ [.mark ")"]) = _
      rw [run_append, hRun]
      simp [step, stepLink, hWhole, push, run]
  | @factor ts f h ih =>
      intro p ps hFactors
      rw [ih p ps, Pending.operand, hFactors]
      rfl
  | @and ts us f g left right ihLeft ihRight =>
      intro p ps hFactors
      rw [run_append, ihLeft p ps hFactors, Option.bind_some, run_cons]
      exact ihRight { p with factors := some f } ps
  | @term ts f h ih => exact fun ps => ⟨{ factors := some f }, rfl, ih {} ps rfl⟩
  | @or ts us f g left right ihLeft ihRight =>
      intro ps
      obtain ⟨q, hWhole, hRun⟩ := ihLeft ps
      refine ⟨{ alternatives := some f, factors := some g }, rfl, ?_⟩
      rw [run_append, hRun, Option.bind_some, run_cons]
      change run ⟨{ alternatives := q.whole } :: ps, none⟩ us = _
      rw [hWhole]
      exact ihRight { alternatives := some f } ps rfl

/-- The grammar is unambiguous. -/
theorem unique (hf : Reads .disjunction ts f) (hg : Reads .disjunction ts g) : f = g := by
  obtain ⟨p, hp, hRunP⟩ := hf.readAs []
  obtain ⟨q, hq, hRunQ⟩ := hg.readAs []
  have hSame := hRunP.symm.trans hRunQ
  simp only [Option.some.injEq, Reader.mk.injEq, List.cons.injEq, and_true] at hSame
  rw [hSame, hq] at hp
  exact (Option.some.inj hp).symm

/-- A condition of a tighter level is one of every looser level. -/
theorem loosen (h : Reads .primary ts f) : ∀ level, Reads level ts f
  | .primary => h
  | .conjunction => .factor h
  | .disjunction => .term (.factor h)

end Reads

end SqlMapper
