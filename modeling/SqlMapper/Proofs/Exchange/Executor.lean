import SqlMapper.Exchange.Wire

/-! Executors and the wires to them. A blocking executor gives its whole reply at once, a streaming
one gives it item by item, and each can stand in for the other. What callers learn over a wire is
what the executor at its end computes for them: the rows, the sum of the effects, or the failure. -/
namespace SqlMapper

def Output.item : Output → Item
  | row r => .row r
  | affected a => .affected a

/-- Answers the last of the requests so far with all outputs or with a failure. -/
abbrev BlockingExecutor := List Request → Result (List Output)

/-- Answers the last of the requests so far with a stream of outputs and failures. -/
abbrev StreamingExecutor := List Request → Reply

namespace Reply

/-- Adds effects to those so far as they come, up to the first failure. -/
def gather (sofar : Affected) : Reply → Result Affected
  | [] => .ok sofar
  | .row _ :: rest => gather sofar rest
  | .affected a :: rest => gather (sofar.add a) rest
  | .failure f :: _ => .error f

/-- Rows in order, up to the first that is enough for the caller. -/
def rowsUntil (enough : Nat → Row → Bool) (seen : Nat) : List Row → List Row
  | [] => []
  | r :: rows => if enough (seen + 1) r then [r] else r :: rowsUntil enough (seen + 1) rows

/-- What is gathered on the way is the sum of all effects, unless there is a failure. -/
theorem gather_eq (sofar : Affected) (reply : Reply) :
    gather sofar reply = (collect reply).map fun outputs =>
      (outputs.filterMap Output.affected?).foldl Affected.add sofar := by
  induction reply generalizing sofar with
  | nil => rfl
  | cons item rest ih =>
      cases item with
      | failure f => rfl
      | row r =>
          rw [gather, collect, ih]
          cases collect rest <;> rfl
      | affected a =>
          rw [gather, collect, ih]
          cases collect rest <;> rfl

/-- A reply without failures is collected whole. -/
theorem collect_outputs (outputs : List Output) :
    collect (outputs.map Output.item) = .ok outputs := by
  induction outputs with
  | nil => rfl
  | cons o outputs ih => cases o <;> simp [Output.item, collect, ih, Except.map]

/-- Outputs have no failure among them. -/
theorem failure?_outputs (outputs : List Output) :
    failure? (outputs.map Output.item) = none := by
  rw [failure?, List.findSome?_eq_none_iff, List.forall_mem_map]
  intro o _
  cases o <;> rfl

/-- Items that are taken to the end bring the effects that there are to add. -/
theorem gather_eq_pull (sofar : Affected) (seen : Nat) (reply : Reply) :
    gather sofar reply = (pull (fun _ _ => false) seen reply).1.failure.elim
      (.ok ((pull (fun _ _ => false) seen reply).1.affected.foldl Affected.add sofar)) .error := by
  induction reply generalizing sofar seen with
  | nil => rfl
  | cons item rest ih =>
      cases item with
      | failure f => rfl
      | row r => exact ih sofar (seen + 1)
      | affected a => exact ih (sofar.add a) seen

/-- A caller who never has enough takes all rows. -/
theorem rowsUntil_never (seen : Nat) (rows : List Row) :
    rowsUntil (fun _ _ => false) seen rows = rows := by
  induction rows generalizing seen with
  | nil => rfl
  | cons r rows ih => simp [rowsUntil, ih]

/-- Rows are taken from a reply without failures until the caller has enough. -/
theorem pull_outputs (enough : Nat → Row → Bool) (seen : Nat) (outputs : List Output) :
    (pull enough seen (outputs.map Output.item)).1.rows =
        rowsUntil enough seen (outputs.filterMap Output.row?) ∧
      (pull enough seen (outputs.map Output.item)).1.failure = none := by
  induction outputs generalizing seen with
  | nil => exact ⟨rfl, rfl⟩
  | cons o outputs ih =>
      cases o with
      | affected a => exact ih seen
      | row r =>
          simp only [List.map_cons, Output.item, pull, List.filterMap_cons, Output.row?, rowsUntil]
          split
          · exact ⟨rfl, rfl⟩
          · exact ⟨congrArg (r :: ·) (ih (seen + 1)).1, (ih (seen + 1)).2⟩

/-- A failure that is found is in the reply. -/
theorem mem_of_failure? {reply : Reply} {f : Failure} (h : reply.failure? = some f) :
    .failure f ∈ reply := by
  obtain ⟨item, hItem, hSome⟩ := List.exists_of_findSome?_eq_some h
  cases item with
  | failure f' => rwa [← Option.some.inj hSome]
  | _ => cases hSome

/-- A failure that is met is in the reply. -/
theorem mem_of_pull {enough : Nat → Row → Bool} {seen : Nat} {reply : Reply} {f : Failure}
    (h : (reply.pull enough seen).1.failure = some f) : .failure f ∈ reply := by
  induction reply generalizing seen with
  | nil => cases h
  | cons item rest ih =>
      cases item with
      | failure f' =>
          obtain rfl := Option.some.inj h
          exact List.mem_cons_self ..
      | affected a => exact List.mem_cons_of_mem _ (ih h)
      | row row =>
          rw [pull] at h
          split at h
          · cases h
          · exact List.mem_cons_of_mem _ (ih h)

end Reply

namespace StreamingExecutor

/-- The whole effect of a request, added up while the stream is read. -/
def execute (E : StreamingExecutor) (requests : List Request) : Result Affected :=
  Reply.gather {} (E requests)

/-- The stream is read to its end while the caller waits. -/
def blocking (E : StreamingExecutor) : BlockingExecutor := fun requests => Reply.collect (E requests)

end StreamingExecutor

namespace BlockingExecutor

/-- The whole effect of a request, made of the whole reply. -/
def execute (B : BlockingExecutor) (requests : List Request) : Result Affected :=
  (B requests).map fun outputs => Affected.total (outputs.filterMap Output.affected?)

/-- The rows of a request, picked out of the whole reply. -/
def fetch (B : BlockingExecutor) (requests : List Request) : Result (List Row) :=
  (B requests).map (List.filterMap Output.row?)

/-- The request runs when the stream is first read, and its outputs are replayed. -/
def streaming (B : BlockingExecutor) : StreamingExecutor := fun requests =>
  match B requests with
  | .ok outputs => outputs.map Output.item
  | .error f => [.failure f]

/-- A stream of outputs that is read to its end gives them back. -/
theorem blocking_streaming (B : BlockingExecutor) : B.streaming.blocking = B := by
  funext requests
  rw [StreamingExecutor.blocking, streaming]
  cases B requests with
  | ok outputs => exact Reply.collect_outputs outputs
  | error f => rfl

end BlockingExecutor

/-- Effects add up to the same, whether they are added as they come or all at once. -/
theorem StreamingExecutor.execute_blocking (E : StreamingExecutor) : E.blocking.execute = E.execute := by
  funext requests
  exact (Reply.gather_eq {} (E requests)).symm

/-- Streaming a blocking executor changes nothing of the effects. -/
theorem BlockingExecutor.execute_streaming (B : BlockingExecutor) : B.streaming.execute = B.execute := by
  rw [← StreamingExecutor.execute_blocking, blocking_streaming]

/-! ### Wires -/

theorem Exchange.runOver_mk {α : Type} (f : Wire → Result α × Wire) (w : Wire) :
    Exchange.runOver (ExceptT.mk f) w = f w := rfl

/-- A second exchange runs over the wire that the first one left, unless this failed. -/
theorem Exchange.runOver_bind {α β : Type} (x : Exchange α) (f : α → Exchange β) (w : Wire) :
    (x >>= f).runOver w =
      match x.runOver w with
      | (.ok a, w') => (f a).runOver w'
      | (.error failure, w') => (.error failure, w') := by
  have hNext : (x >>= f).runOver w = ExceptT.bindCont f (x.runOver w).1 (x.runOver w).2 := rfl
  rw [hNext]
  rcases x.runOver w with ⟨_ | _, w'⟩ <;> rfl

namespace Wire

/-- A failure that is delivered came with the reply, however the reply arrives. -/
theorem mem_of_deliver {mode : Mode} {enough : Nat → Row → Bool} {reply : Reply} {f : Failure}
    (h : (deliver mode enough reply).1.failure = some f) : .failure f ∈ reply := by
  cases mode with
  | blocking | streaming =>
      rw [deliver] at h
      split at h
      next f' hFailure =>
        obtain rfl := Option.some.inj h
        exact Reply.mem_of_failure? hFailure
      next => exact Reply.mem_of_pull h
  | native | adapter => exact Reply.mem_of_pull h

/-- What a caller learns who sends the last of some requests and waits for the end of its reply. -/
def outcome (w : Wire) (requests : List Request) : Result Affected :=
  let delivery := (deliver w.mode (fun _ _ => false) (w.answer requests)).1
  delivery.failure.elim (.ok (Affected.total delivery.affected)) .error

/-- What callers learn who send requests one after another, behind some that have been sent. -/
def replies (w : Wire) (sent : List Request) : List Request → List (Result Affected)
  | [] => []
  | r :: rs => w.outcome (sent ++ [r]) :: w.replies (sent ++ [r]) rs

/-- A modification sends its request and comes to the outcome of it. -/
theorem runOver_execute (site : Site) (r : Request) (w : Wire) :
    (Exchange.execute site r).runOver w =
      ((w.outcome (w.sent ++ [r])).mapError (executionFailure site r),
        (w.ask (fun _ _ => false) r).2) := by
  simp only [Exchange.execute, Exchange.runOver_mk, outcome, ask]
  cases (deliver w.mode (fun _ _ => false) (w.answer (w.sent ++ [r]))).1.failure <;> rfl

end Wire

namespace BlockingExecutor

/-- A wire to the executor, which is used directly or through a stream of its outputs. -/
def wire (B : BlockingExecutor) (streamed : Bool) (sent : List Request) : Wire where
  mode := if streamed then .streaming else .blocking
  answer := B.streaming
  sent

variable {B : BlockingExecutor} {streamed : Bool} {sent : List Request}

/-- A caller of the executor itself gets all that there is, and one of its stream may leave. -/
theorem deliver_wire (enough : Nat → Row → Bool) (requests : List Request) :
    Wire.deliver (B.wire streamed sent).mode enough ((B.wire streamed sent).answer requests) =
      ((Reply.pull (if streamed then enough else fun _ _ => false) 0 (B.streaming requests)).1,
        0) := by
  simp only [wire, streaming]
  cases B requests with
  | error f => cases streamed <;> rfl
  | ok outputs => cases streamed <;> simp [Wire.deliver, Mode.isWhole, Reply.failure?_outputs]

/-- Asking over the wire of an executor gives its reply, as far as the caller takes it. -/
theorem ask_wire (enough : Nat → Row → Bool) (r : Request) :
    (B.wire streamed sent).ask enough r =
      ((Reply.pull (if streamed then enough else fun _ _ => false) 0
        (B.streaming (sent ++ [r]))).1, B.wire streamed (sent ++ [r])) := by
  rw [Wire.ask, deliver_wire]
  rfl

theorem outcome_wire : (B.wire streamed sent).outcome = B.streaming.execute := by
  funext requests
  rw [Wire.outcome, deliver_wire, ite_self]
  exact (Reply.gather_eq_pull {} 0 (B.streaming requests)).symm

/-- A modification that is sent to the executor itself. -/
theorem runOver_execute_direct (site : Site) (r : Request) :
    (Exchange.execute site r).runOver (B.wire false sent) =
      ((B.execute (sent ++ [r])).mapError (Wire.executionFailure site r),
        B.wire false (sent ++ [r])) := by
  rw [Wire.runOver_execute, outcome_wire, execute_streaming, ask_wire]
  rfl

/-- A modification that is sent to the stream of the executor. -/
theorem runOver_execute_streamed (site : Site) (r : Request) :
    (Exchange.execute site r).runOver (B.wire true sent) =
      ((B.streaming.execute (sent ++ [r])).mapError (Wire.executionFailure site r),
        B.wire true (sent ++ [r])) := by
  rw [Wire.runOver_execute, outcome_wire, ask_wire]
  rfl

/-- The rows that a caller takes of a query. A failure comes before any row. -/
theorem fetch_wire (site : Site) (r : Request) (enough : Nat → Row → Bool) :
    (B.wire streamed sent).fetch site r enough =
      (match B.fetch (sent ++ [r]) with
        | .ok rows => (Reply.rowsUntil (if streamed then enough else fun _ _ => false) 0 rows, none)
        | .error f => ([], some (Wire.executionFailure site r f)), B.wire streamed (sent ++ [r])) := by
  rw [Wire.fetch, ask_wire, fetch, streaming]
  cases B (sent ++ [r]) with
  | error f => rfl
  | ok outputs =>
      obtain ⟨hRows, hFailure⟩ :=
        Reply.pull_outputs (if streamed then enough else fun _ _ => false) 0 outputs
      dsimp only
      rw [hRows, hFailure]
      rfl

/-- The rows of a request are those of the executor, as far as the caller takes them. -/
theorem runOver_fetch (site : Site) (r : Request) (enough : Nat → Row → Bool) :
    (Exchange.fetch site r enough).runOver (B.wire streamed sent) =
      (((B.fetch (sent ++ [r])).map
          (Reply.rowsUntil (if streamed then enough else fun _ _ => false) 0)).mapError
            (Wire.executionFailure site r), B.wire streamed (sent ++ [r])) := by
  rw [Exchange.fetch, Exchange.runOver_mk, fetch_wire]
  cases B.fetch (sent ++ [r]) <;> rfl

end BlockingExecutor

end SqlMapper
