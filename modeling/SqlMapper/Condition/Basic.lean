import SqlMapper.Value.Basic

/-!
# Conditions

A filter is a tree of comparisons. Every child of a group is linked to what stands before it in the
group; the link of the first child has nothing before it and plays no part. A group is read from
left to right, without precedence: `a AND b OR c` is `(a AND b) OR c`.
-/

namespace SqlMapper

/-- The comparisons. -/
inductive Operator where
  | equal | notEqual
  | less | lessEqual | greater | greaterEqual
  | like | notLike
  | between | notBetween
  | isIn | notIn
  | isNull | isNotNull
  deriving DecidableEq, Repr

namespace Operator

/-- How many values the comparison takes; none for a list of any length. -/
def arity : Operator → Option Nat
  | isNull | isNotNull => some 0
  | between | notBetween => some 2
  | isIn | notIn => none
  | _ => some 1

/-- The name of the comparison in messages. -/
def name : Operator → String
  | equal => "Equal"
  | notEqual => "NotEqual"
  | less => "Less"
  | lessEqual => "LessEqual"
  | greater => "Greater"
  | greaterEqual => "GreaterEqual"
  | like => "Like"
  | notLike => "NotLike"
  | between => "Between"
  | notBetween => "NotBetween"
  | isIn => "In"
  | notIn => "NotIn"
  | isNull => "IsNull"
  | isNotNull => "IsNotNull"

end Operator

/-- A comparison of a column with values. The column is looked up when a statement is compiled. -/
structure Predicate where
  column : String
  operator : Operator
  values : List Value

/-- How a child of a group joins what stands before it. -/
inductive Link where
  | and
  | or
  deriving DecidableEq, Repr

/-- A filter. -/
inductive Condition where
  | leaf (predicate : Predicate)
  | group (children : List (Link × Condition))

namespace Condition

def compare (column : String) (operator : Operator) (values : List Value) : Condition :=
  leaf ⟨column, operator, values⟩

def all (conditions : List Condition) : Condition := group (conditions.map (Link.and, ·))

def any (conditions : List Condition) : Condition := group (conditions.map (Link.or, ·))

/-- The condition is a group without children. -/
def isEmpty : Condition → Bool
  | group [] => true
  | _ => false

/-- Joins `next` to the end of a condition. A group takes it as one more child, an empty group
gives way to it. -/
def link (c : Condition) (l : Link) (next : Condition) : Condition :=
  match c with
  | group [] => next
  | group (child :: children) => group (child :: children ++ [(l, next)])
  | leaf p => group [(l, leaf p), (l, next)]

def and (c next : Condition) : Condition := c.link .and next

def or (c next : Condition) : Condition := c.link .or next

/-- A filter with a condition added; no filter becomes the condition. -/
def added (filter : Option Condition) (c : Condition) : Option Condition :=
  some (match filter with
    | some f => f.and c
    | none => c)

/-- What a filter asks for: an empty group asks for nothing. -/
def effective (filter : Option Condition) : Option Condition := filter.filter (!·.isEmpty)

end Condition

end SqlMapper
