import SqlMapper.Condition.Sql
import SqlMapper.Statement.Reference

/-!
# Updates and deletions

Both act on the rows that a filter selects. Without an effective filter they are refused, unless
acting on every row has been allowed explicitly.
-/

namespace SqlMapper

/-- An update of the selected rows. -/
structure Update where
  table : Table
  dialect : Dialect
  /-- Pairs of a column and its new value, in the order in which they were set. -/
  assignments : List (String × Value) := []
  filter : Option Condition := none
  unconditional : Bool := false

namespace Update

def site (u : Update) : Site := ⟨.update, u.table.name, none⟩

def set (u : Update) (column : String) (value : Value) : Update :=
  { u with assignments := u.assignments ++ [(column, value)] }

def narrow (u : Update) (c : Condition) : Update :=
  { u with filter := Condition.added u.filter c }

/-- The assignments with their columns looked up. -/
def resolved (t : Table) : List (String × Value) → Result (List (Column × Value))
  | [] => .ok []
  | (name, v) :: rest => do
    let c ← t.column name .update
    let cs ← resolved t rest
    return (c, v) :: cs

/-- The parts of the `SET` clause. -/
def assignmentSql (d : Dialect) (table : String) : List (Column × Value) → Result (List Sql)
  | [] => .ok []
  | (c, v) :: rest => do
    let type ← d.columnType table c
    let parts ← assignmentSql d table rest
    return [.name c.name, .text " = ", .bind v type] :: parts

def compile (u : Update) : Result Request := do
  if u.assignments.isEmpty then throw (.compile u.site .nothingToSet)
  let filter := Condition.effective u.filter
  if filter.isNone && !u.unconditional then throw (.compile u.site .unconditionalUpdate)
  let assignments ← resolved u.table u.assignments
  let parts ← assignmentSql u.dialect u.table.name assignments
  let clause ← Condition.clause u.dialect u.table .update filter
  return u.dialect.request
    (.text "UPDATE " :: u.table.reference ++ .text "\nSET " :: Sql.joined ", " parts ++ clause)

end Update

/-- A deletion of the selected rows. -/
structure Delete where
  table : Table
  dialect : Dialect
  filter : Option Condition := none
  unconditional : Bool := false

namespace Delete

def site (x : Delete) : Site := ⟨.delete, x.table.name, none⟩

def narrow (x : Delete) (c : Condition) : Delete :=
  { x with filter := Condition.added x.filter c }

def compile (x : Delete) : Result Request := do
  let filter := Condition.effective x.filter
  if filter.isNone && !x.unconditional then throw (.compile x.site .unconditionalDelete)
  let clause ← Condition.clause x.dialect x.table .delete filter
  return x.dialect.request (.text "DELETE FROM " :: x.table.reference ++ clause)

end Delete

end SqlMapper
