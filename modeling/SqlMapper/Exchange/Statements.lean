import SqlMapper.Exchange.Wire
import SqlMapper.Statement.Insert
import SqlMapper.Statement.Query
import SqlMapper.Statement.Update

/-!
# Running statements

A statement is compiled before anything is sent, so a statement that does not compile sends nothing.
-/

namespace SqlMapper

namespace Insert

def execute (i : Insert) : Exchange Affected := do
  let requests ← Exchange.ofResult i.compile
  Exchange.executeAll i.site requests

/-- Runs the insertion, waiting for each of its requests. -/
def executeWhole (i : Insert) : Exchange Affected := do
  let requests ← Exchange.ofResult i.compile
  Exchange.executeEach i.site {} requests

end Insert

namespace Update

def execute (u : Update) : Exchange Affected := do
  let request ← Exchange.ofResult u.compile
  Exchange.execute u.site request

def executeWhole (u : Update) : Exchange Affected := do
  let request ← Exchange.ofResult u.compile
  Exchange.executeWhole u.site request

end Update

namespace Delete

def execute (x : Delete) : Exchange Affected := do
  let request ← Exchange.ofResult x.compile
  Exchange.execute x.site request

/-- Runs the deletion and waits for it. -/
def executeWhole (x : Delete) : Exchange Affected := do
  let request ← Exchange.ofResult x.compile
  Exchange.executeWhole x.site request

end Delete

namespace Query

/-- The count in the first cell of a row; a row without cells counts as a missing value. -/
def total (site : Site) (r : Row) : Result Nat :=
  match Ty.toInteger .uint64 (r.values.head?.getD .null) with
  | .ok n => .ok n.val.toNat
  | .error e => .error (Failure.ofCoercion (fun faults => .of (.mapping site (.total faults))) e)

/-- Counts the rows of the whole result. No row at all counts as zero. -/
def count (q : Query) : Exchange Nat := do
  let request ← Exchange.ofResult q.countRequest
  match ← Exchange.fetchFirst (q.site .count) request with
  | none => return 0
  | some r => Exchange.ofResult (total (q.site .count) r)

/-- Counts the rows of the whole result, out of all rows that the reply has. -/
def countWhole (q : Query) : Exchange Nat := do
  let request ← Exchange.ofResult q.countRequest
  let rows ← Exchange.fetchWhole (q.site .count) request
  match rows.head? with
  | none => return 0
  | some r => Exchange.ofResult (total (q.site .count) r)

/-- Takes rows until there are enough, and says what ended them early. A caller who wants no rows
sends nothing and learns nothing. -/
def stream (q : Query) (take : Option Nat) (stop : Row → Bool) (w : Wire) :
    (List Row × Option Failure) × Wire :=
  if take = some 0 then (([], none), w)
  else
    match q.compile with
    | .error e => (([], some e), w)
    | .ok request => w.fetch (q.site .query) request fun n r => take == some n || stop r

def collect (q : Query) : Exchange (List Row) :=
  ExceptT.mk fun w =>
    let ((rows, failure), w) := q.stream none (fun _ => false) w
    (failure.elim (.ok rows) .error, w)

def fetch (q : Query) : Exchange (List Row) := do
  let request ← Exchange.ofResult q.compile
  Exchange.fetchWhole (q.site .query) request

end Query

end SqlMapper
