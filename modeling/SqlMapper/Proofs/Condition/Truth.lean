import SqlMapper.Condition.Basic
import SqlMapper.Schema.Table

/-! What a condition asks of a row, read from left to right in three-valued logic. How a database
compares two values is left open: a `Comparisons` may be any function, also one that tells the
values of different collations or storage classes apart. No text is involved here. -/
namespace SqlMapper

/-- A truth value of SQL. -/
inductive Truth where
  | false
  | unknown
  | true
  deriving DecidableEq, Repr

namespace Truth

def ofBool (b : Bool) : Truth := if b then .true else .false

def not : Truth → Truth
  | .false => .true
  | .unknown => .unknown
  | .true => .false

def and : Truth → Truth → Truth
  | .false, _ | _, .false => .false
  | .true, .true => .true
  | _, _ => .unknown

def or : Truth → Truth → Truth
  | .true, _ | _, .true => .true
  | .false, .false => .false
  | _, _ => .unknown

end Truth

/-- The comparisons of a cell with one value. -/
inductive Comparator where
  | equal | notEqual
  | less | lessEqual | greater | greaterEqual
  | like
  deriving DecidableEq, Repr

/-- What a database finds when it compares two values. -/
abbrev Comparisons := Comparator → Value → Value → Truth

namespace Comparisons

/-- The cell is at least `low` and at most `high`. -/
def within (m : Comparisons) (cell low high : Value) : Truth :=
  (m .greaterEqual cell low).and (m .lessEqual cell high)

def among (m : Comparisons) (cell : Value) (values : List Value) : Truth :=
  values.foldr (fun v rest => (m .equal cell v).or rest) .false

end Comparisons

/-- The cells of a row under the names of their columns. -/
abbrev Cells := String → Value

namespace Operator

/-- What the comparison finds for a cell. -/
def truth (m : Comparisons) (cell : Value) : Operator → List Value → Truth
  | equal, [v] => m .equal cell v
  | notEqual, [v] => m .notEqual cell v
  | less, [v] => m .less cell v
  | lessEqual, [v] => m .lessEqual cell v
  | greater, [v] => m .greater cell v
  | greaterEqual, [v] => m .greaterEqual cell v
  | like, [v] => m .like cell v
  | notLike, [v] => (m .like cell v).not
  | between, [low, high] => m.within cell low high
  | notBetween, [low, high] => (m.within cell low high).not
  | isIn, values => m.among cell values
  | notIn, values => (m.among cell values).not
  | isNull, _ => .ofBool cell.isNull
  | isNotNull, _ => (Truth.ofBool cell.isNull).not
  | _, _ => .unknown

end Operator

namespace Predicate

/-- The comparison that is meant: equality with NULL asks whether the cell is missing. -/
def meant (p : Predicate) : Operator :=
  match p.operator, p.values with
  | .equal, [v] => if v.isNull then .isNull else .equal
  | .notEqual, [v] => if v.isNull then .isNotNull else .notEqual
  | o, _ => o

/-- What the comparison finds in a row of the table. -/
def truth (m : Comparisons) (t : Table) (row : Cells) (p : Predicate) : Truth :=
  match t.find? p.column with
  | some c => p.meant.truth m (row c.name) p.values
  | none => .unknown

end Predicate

namespace Link

def join : Link → Truth → Truth → Truth
  | and => Truth.and
  | or => Truth.or

end Link

namespace Condition

mutual

/-- What the condition finds in a row of the table. -/
def truth (m : Comparisons) (t : Table) (row : Cells) : Condition → Truth
  | leaf p => p.truth m t row
  | group [] => .true
  | group ((_, c) :: rest) => truthAfter m t row (truth m t row c) rest

/-- What the rest of a group makes of `left`, found so far. -/
def truthAfter (m : Comparisons) (t : Table) (row : Cells) (left : Truth) :
    List (Link × Condition) → Truth
  | [] => left
  | (link, c) :: rest => truthAfter m t row (link.join left (truth m t row c)) rest

end

end Condition

end SqlMapper
