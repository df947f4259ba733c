import SqlMapper.Failure
import SqlMapper.Text.Case

/-!
# Replies

What a database answers to a request: rows, effects of modifications, and failures, in order.
-/

namespace SqlMapper

/-- A row under the labels of its columns. -/
structure Row where
  labels : List String
  values : List Value

namespace Row

/-- The labels with their values, as far as both go. -/
def cells (r : Row) : List (String × Value) := r.labels.zip r.values

/-- The value under a label, in any letter case. A label without a value ends the run. -/
def find? (r : Row) (name : String) : Result (Option Value) :=
  match r.labels.findIdx? (Text.sameName · name) with
  | none => .ok none
  | some i =>
    match r.values[i]? with
    | some v => .ok (some v)
    | none => .error .ended

end Row

/-- The effect of a modification: the count of rows, and the last inserted identifier if the
database tells one. The count is a word: a sum beyond the last one starts again at zero. -/
structure Affected where
  rows : UInt64 := 0
  lastId : Option Int := none
  deriving DecidableEq, Repr

namespace Affected

/-- The effect of one modification after another. The last told identifier counts. -/
def add (a b : Affected) : Affected := ⟨a.rows + b.rows, b.lastId.orElse fun _ => a.lastId⟩

/-- The effect of several modifications in order. -/
def total (effects : List Affected) : Affected := effects.foldl add {}

end Affected

/-- The words of a database alone, without a cause. -/
instance : Coe String Failure := ⟨fun text => .fault (.reply text)⟩

/-- The words of a failure are those of its outermost layer. -/
instance : Coe Failure String := ⟨fun f => f.layers.head?.elim "" Layer.message⟩

/-- One item of a reply. A failure comes with all the causes that the database tells. -/
inductive Item where
  | row (r : Row)
  | affected (a : Affected)
  | failure (f : Failure)

/-- What a database answers to one request. -/
abbrev Reply := List Item

/-- A row or an effect, as executors give them. -/
inductive Output where
  | row (r : Row)
  | affected (a : Affected)

namespace Output

def row? : Output → Option Row
  | row r => some r
  | affected _ => none

def affected? : Output → Option Affected
  | row _ => none
  | affected a => some a

end Output

/-- What a caller has received of a reply. With a failure nothing more follows. -/
structure Delivery where
  rows : List Row := []
  affected : List Affected := []
  failure : Option Failure := none

namespace Reply

def failure? (reply : Reply) : Option Failure :=
  reply.findSome? fun
    | .failure f => some f
    | _ => none

/-- The outputs in order, unless there is a failure. -/
def collect : Reply → Result (List Output)
  | [] => .ok []
  | .row r :: rest => (collect rest).map (.row r :: ·)
  | .affected a :: rest => (collect rest).map (.affected a :: ·)
  | .failure f :: _ => .error f

/-- Takes items one by one until one is a failure or the caller has enough: `enough n r` says so
after row `r`, the `n`-th. Also counts the items taken. -/
def pull (enough : Nat → Row → Bool) (seen : Nat) : Reply → Delivery × Nat
  | [] => ({}, 0)
  | .failure f :: _ => ({ failure := some f }, 1)
  | .affected a :: rest =>
    let (d, n) := pull enough seen rest
    ({ d with affected := a :: d.affected }, n + 1)
  | .row r :: rest =>
    if enough (seen + 1) r then ({ rows := [r] }, 1)
    else
      let (d, n) := pull enough (seen + 1) rest
      ({ d with rows := r :: d.rows }, n + 1)

end Reply

end SqlMapper
