import SqlMapper.Exchange.Reply

/-!
# Wires

A wire leads to a database and records what passes. The database may be any function from the
requests so far to a reply. The wire decides how a reply arrives: whole or item by item, and whether
a caller who has enough can leave the rest. An exchange is a computation over a wire; it keeps the
record also when it fails.

A caller takes the items of a reply as they come, or waits for the whole reply and picks out of it
what it needs. Either has its own forms of what follows.
-/

namespace SqlMapper

/-- How replies arrive. -/
inductive Mode where
  /-- The database answers with whole replies, and callers wait for them. -/
  | blocking
  /-- The database answers with whole replies, which callers take item by item. -/
  | streaming
  /-- The database answers item by item while callers take them. -/
  | native
  /-- The database answers item by item, and callers wait until the last item or a failure. -/
  | adapter
  deriving DecidableEq, Repr

namespace Mode

/-- Callers wait for whole replies. -/
def isWhole : Mode → Bool
  | blocking | adapter => true
  | streaming | native => false

end Mode

/-- A way to a database, with the record of what passed. -/
structure Wire where
  mode : Mode
  /-- The reply to the last of the requests so far. -/
  answer : List Request → Reply
  sent : List Request := []
  /-- Items taken from a database that answers item by item. -/
  pulled : Nat := 0

abbrev Exchange (α : Type) := ExceptT Failure (StateM Wire) α

namespace Wire

/-- A database that gives fixed replies in order and then empty ones. -/
def scripted (mode : Mode) (replies : List Reply) : Wire where
  mode
  answer requests := (replies[requests.length - 1]?).getD []

/-- The delivery of a reply to a caller who may have enough early. A whole reply with a failure is
nothing but the failure. -/
def deliver (mode : Mode) (enough : Nat → Row → Bool) (reply : Reply) : Delivery × Nat :=
  let never : Nat → Row → Bool := fun _ _ => false
  match mode with
  | .blocking | .streaming =>
    match reply.failure? with
    | some f => ({ failure := some f }, 0)
    | none => ((reply.pull (if mode.isWhole then never else enough) 0).1, 0)
  | .native => reply.pull enough 0
  | .adapter => reply.pull never 0

/-- Sends a request and takes its reply until the caller has enough. -/
def ask (w : Wire) (enough : Nat → Row → Bool) (request : Request) : Delivery × Wire :=
  let sent := w.sent ++ [request]
  let (delivery, taken) := deliver w.mode enough (w.answer sent)
  (delivery, { w with sent, pulled := w.pulled + taken })

/-- Sends a request and waits for all of its reply, which is nothing but a failure if it has one. -/
def askWhole (w : Wire) (request : Request) : Result (List Output) × Wire :=
  let sent := w.sent ++ [request]
  let reply := w.answer sent
  let (_, taken) := deliver w.mode (fun _ _ => false) reply
  (reply.collect, { w with sent, pulled := w.pulled + taken })

/-- A failure of the database while a request runs: its own failure as the cause. -/
def executionFailure (site : Site) (request : Request) (f : Failure) : Failure :=
  f.under (.execution site request)

/-- The rows of a request, and the failure that ended them, if one did. -/
def fetch (w : Wire) (site : Site) (request : Request) (enough : Nat → Row → Bool) :
    (List Row × Option Failure) × Wire :=
  let (delivery, w) := w.ask enough request
  ((delivery.rows, delivery.failure.map (executionFailure site request)), w)

end Wire

namespace Exchange

def runOver (x : Exchange α) (w : Wire) : Result α × Wire := x.run.run w

def ofResult (r : Result α) : Exchange α := ExceptT.mk (pure r)

/-- Runs a modification to its end and gives its whole effect. -/
def execute (site : Site) (request : Request) : Exchange Affected :=
  ExceptT.mk fun w =>
    let (delivery, w) := w.ask (fun _ _ => false) request
    match delivery.failure with
    | some f => (.error (Wire.executionFailure site request f), w)
    | none => (.ok (Affected.total delivery.affected), w)

/-- Runs modifications in order and gives their whole effect. -/
def executeAll (site : Site) : List Request → Exchange Affected
  | [] => return {}
  | r :: rs => do
    let first ← execute site r
    let rest ← executeAll site rs
    return first.add rest

/-- The rows of a request, unless a failure ends them. -/
def fetch (site : Site) (request : Request) (enough : Nat → Row → Bool) : Exchange (List Row) :=
  ExceptT.mk fun w =>
    let ((rows, failure), w) := w.fetch site request enough
    (failure.elim (.ok rows) .error, w)

/-- The first row of a request, if it has one. -/
def fetchFirst (site : Site) (request : Request) : Exchange (Option Row) := do
  let rows ← fetch site request fun _ _ => true
  return rows.head?

/-! ### Callers who wait -/

/-- Runs an exchange; a layer comes above its failure. -/
def within (x : Exchange α) (layer : Layer) : Exchange α :=
  ExceptT.mk fun w =>
    match x.runOver w with
    | (.error f, w) => (.error (f.under layer), w)
    | (.ok a, w) => (.ok a, w)

/-- The outputs of a request, out of its whole reply. -/
def outputs (site : Site) (request : Request) : Exchange (List Output) :=
  ExceptT.mk fun w =>
    let (result, w) := w.askWhole request
    (result.mapError (Wire.executionFailure site request), w)

/-- Runs a modification and adds up the effects in its whole reply. -/
def executeWhole (site : Site) (request : Request) : Exchange Affected := do
  let outputs ← outputs site request
  return Affected.total (outputs.filterMap Output.affected?)

/-- Runs modifications in order, waiting for each, and adds their effects to those so far. -/
def executeEach (site : Site) (sofar : Affected) : List Request → Exchange Affected
  | [] => return sofar
  | r :: rs => do
    let affected ← executeWhole site r
    executeEach site (sofar.add affected) rs

/-- The rows in the whole reply to a request. -/
def fetchWhole (site : Site) (request : Request) : Exchange (List Row) := do
  let outputs ← outputs site request
  return outputs.filterMap Output.row?

end Exchange

end SqlMapper
