import SqlMapper.Sql.TypeName

/-!
# SQL of conditions

A condition becomes text whose reading by SQL's own precedence is its reading from left to right.
Where the link changes inside a group, all that stands before is put between parentheses, and so is
every child that is a group of several. A comparison with NULL becomes `IS NULL` or `IS NOT NULL`, or
is refused.
-/

namespace SqlMapper

namespace Operator

/-- What stands between the column and the first value. -/
def opening : Operator → String
  | equal => " = "
  | notEqual => " != "
  | less => " < "
  | lessEqual => " <= "
  | greater => " > "
  | greaterEqual => " >= "
  | like => " LIKE "
  | notLike => " NOT LIKE "
  | between => " BETWEEN "
  | notBetween => " NOT BETWEEN "
  | isIn => " IN ("
  | notIn => " NOT IN ("
  | isNull => " IS NULL"
  | isNotNull => " IS NOT NULL"

def separator : Operator → String
  | between | notBetween => " AND "
  | _ => ", "

def closing : Operator → Sql
  | isIn | notIn => [.text ")"]
  | _ => []

/-- The comparison to use for these values: NULL as the only value turns equality into a test for
NULL, and no other comparison takes it. -/
def forValues (operator : Operator) (values : List Value) : Except CompileReason Operator :=
  match operator.arity with
  | some n =>
    if values.length ≠ n then .error (.valueCount operator n values.length)
    else
      match values with
      | [v] =>
        if v.isNull then
          match operator with
          | equal => .ok isNull
          | notEqual => .ok isNotNull
          | _ => .error (.comparesNull operator)
        else .ok operator
      | _ => .ok operator
  | none =>
    match values with
    | [] => .error .emptyList
    | [v] => if v.isNull then .error (.comparesNull operator) else .ok operator
    | _ => .ok operator

end Operator

namespace Predicate

/-- The comparison after its column, with values of a database type. -/
def comparison (operator : Operator) (sqlType : String) (values : List Value) : Sql :=
  let bound := match operator with
    | .isNull | .isNotNull => []
    | _ => values.map fun v => [Piece.bind v sqlType]
  .text operator.opening :: Sql.joined operator.separator bound ++ operator.closing

/-- The comparison with its column looked up in the table. -/
def sql (d : Dialect) (t : Table) (operation : Operation) (p : Predicate) : Result Sql := do
  let c ← t.column p.column operation
  match p.operator.forValues p.values with
  | .error reason => throw (.compile ⟨operation, t.name, some c.name⟩ reason)
  | .ok operator =>
    let sqlType ← d.columnType t.name c
    return .name c.name :: comparison operator sqlType p.values

end Predicate

namespace Link

def word : Link → String
  | and => " AND "
  | or => " OR "

end Link

namespace Condition

/-- The condition is a group of several, which needs parentheses inside another group. -/
def isCompound : Condition → Bool
  | group (_ :: _ :: _) => true
  | _ => false

mutual

/-- The text of a condition on the columns of a table. -/
def sql (d : Dialect) (t : Table) (operation : Operation) : Condition → Result Sql
  | leaf p => p.sql d t operation
  | group [] => .error (.compile ⟨operation, t.name, none⟩ .emptyGroup)
  | group ((_, c) :: rest) => do
    let first ← sql d t operation c
    sqlAfter d t operation (if c.isCompound then Sql.enclosed first else first) none rest

/-- Appends children to what is written of a group; `previous` is the link last written. -/
def sqlAfter (d : Dialect) (t : Table) (operation : Operation) (written : Sql)
    (previous : Option Link) : List (Link × Condition) → Result Sql
  | [] => .ok written
  | (link, c) :: rest => do
    let left := if previous.any (· != link) then Sql.enclosed written else written
    let right ← sql d t operation c
    let right := if c.isCompound then Sql.enclosed right else right
    sqlAfter d t operation (left ++ .text link.word :: right) (some link) rest

end

/-- The clause that a filter adds to a statement. -/
def clause (d : Dialect) (t : Table) (operation : Operation) (filter : Option Condition) :
    Result Sql :=
  match filter with
  | none => .ok []
  | some c => do
    let condition ← c.sql d t operation
    return .text "\nWHERE " :: condition

end Condition

end SqlMapper
