import SqlMapper.Migration.Session
import SqlMapper.Proofs.Exchange.Executor
import SqlMapper.Proofs.Result
import SqlMapper.Record.Repository

/-! Callers who wait for whole replies, and those who take items as they come. The two have loops of
their own: effects are added to those so far or behind those that follow, chunks are run one by one or
as one list of requests, and a commit registers at once what it came to or when its steps are over. Over
every wire both come to the same. -/
namespace SqlMapper

/-! ### Replies -/

namespace Affected

/-- Effects are added in any grouping. -/
theorem add_assoc (a b c : Affected) : (a.add b).add c = a.add (b.add c) := by
  cases c with
  | mk rows lastId => cases lastId <;> simp [add, UInt64.add_assoc]

theorem add_empty (a : Affected) : a.add {} = a := by simp [add]

theorem empty_add (a : Affected) : Affected.add {} a = a := by
  cases a with
  | mk rows lastId => cases lastId <;> simp [add]

end Affected

namespace Reply

/-- A reply without a failure is that of its outputs. -/
theorem eq_of_collect {reply : Reply} {outputs : List Output} (h : reply.collect = .ok outputs) :
    reply = outputs.map Output.item := by
  induction reply generalizing outputs with
  | nil =>
      obtain rfl := Except.ok.inj h
      rfl
  | cons item rest ih =>
      cases item with
      | failure f => cases h
      | row | affected =>
          obtain ⟨later, hRest, rfl⟩ := Result.map_eq_ok_iff.mp h
          rw [List.map_cons, ← ih hRest]
          rfl

/-- A caller who takes all outputs of a reply receives the rows and the effects in order. -/
theorem pull_all (seen : Nat) (outputs : List Output) :
    (pull (fun _ _ => false) seen (outputs.map Output.item)).1 =
      { rows := outputs.filterMap Output.row?, affected := outputs.filterMap Output.affected? } := by
  induction outputs generalizing seen with
  | nil => rfl
  | cons output outputs ih =>
      cases output with
      | row r => exact congrArg (fun d : Delivery => { d with rows := r :: d.rows }) (ih (seen + 1))
      | affected a => exact congrArg (fun d : Delivery => { d with affected := a :: d.affected }) (ih seen)

/-- A caller who takes items to the end comes upon the failure of the whole reply. -/
theorem failure_of_collect {reply : Reply} {f : Failure} (h : reply.collect = .error f)
    (seen : Nat) : (reply.pull (fun _ _ => false) seen).1.failure = some f := by
  induction reply generalizing seen with
  | nil => cases h
  | cons item rest ih =>
      cases item with
      | failure f' =>
          obtain rfl := Except.error.inj h
          rfl
      | row r => exact ih (Result.map_eq_error_iff.mp h) (seen + 1)
      | affected a => exact ih (Result.map_eq_error_iff.mp h) seen

/-- The failure of a whole reply is the first one in it. -/
theorem failure?_eq (reply : Reply) :
    reply.failure? = match reply.collect with
      | .ok _ => none
      | .error f => some f := by
  induction reply with
  | nil => rfl
  | cons item rest ih =>
      cases item with
      | failure f => rfl
      | row r =>
          rw [collect]
          refine Eq.trans ih ?_
          cases collect rest <;> rfl
      | affected a =>
          rw [collect]
          refine Eq.trans ih ?_
          cases collect rest <;> rfl

end Reply

namespace Wire

variable {reply : Reply}

/-- However a reply arrives, a caller who takes all of it receives its outputs. -/
theorem deliver_of_collect {outputs : List Output} (h : reply.collect = .ok outputs) (mode : Mode) :
    (deliver mode (fun _ _ => false) reply).1 =
      { rows := outputs.filterMap Output.row?, affected := outputs.filterMap Output.affected? } := by
  have hPull : (reply.pull (fun _ _ => false) 0).1 = _ :=
    Reply.eq_of_collect h ▸ Reply.pull_all 0 outputs
  cases mode with
  | native | adapter => exact hPull
  | blocking | streaming =>
      simp only [deliver, reply.failure?_eq, h, ite_self]
      exact hPull

/-- However a reply arrives, a caller who takes all of it learns of its failure. -/
theorem deliver_failure_of_collect {f : Failure} (h : reply.collect = .error f) (mode : Mode) :
    (deliver mode (fun _ _ => false) reply).1.failure = some f := by
  cases mode with
  | native | adapter => exact Reply.failure_of_collect h 0
  | blocking | streaming => simp only [deliver, reply.failure?_eq, h]

end Wire

/-! ### Requests -/

namespace Exchange

variable {α : Type} {site : Site} {request : Request}

/-- Exchanges are the same if they are so over every wire. -/
theorem ext {x y : Exchange α} (h : ∀ w, x.runOver w = y.runOver w) : x = y := funext h

/-- Effects picked out of a whole reply add up to those that were added as they came. -/
theorem executeWhole_eq (site : Site) (request : Request) :
    executeWhole site request = execute site request := by
  refine ext fun w => ?_
  rw [executeWhole, runOver_bind, outputs, runOver_mk, execute, runOver_mk, Wire.askWhole, Wire.ask]
  cases hReply : (w.answer (w.sent ++ [request])).collect with
  | ok outputs =>
      simp only [Wire.deliver_of_collect hReply]
      rfl
  | error f =>
      simp only [Wire.deliver_failure_of_collect hReply]
      rfl

/-- The rows of a whole reply are those that a caller takes who never has enough. -/
theorem fetchWhole_eq (site : Site) (request : Request) :
    fetchWhole site request = fetch site request fun _ _ => false := by
  refine ext fun w => ?_
  rw [fetchWhole, runOver_bind, outputs, runOver_mk, fetch, runOver_mk, Wire.askWhole, Wire.fetch,
    Wire.ask]
  cases hReply : (w.answer (w.sent ++ [request])).collect with
  | ok outputs =>
      simp only [Wire.deliver_of_collect hReply]
      rfl
  | error f =>
      simp only [Wire.deliver_failure_of_collect hReply]
      rfl

/-- Effects that are added to those so far are those so far with the whole effect behind them. -/
theorem executeEach_eq (site : Site) (sofar : Affected) (requests : List Request) :
    executeEach site sofar requests = sofar.add <$> executeAll site requests := by
  induction requests generalizing sofar with
  | nil =>
      rw [executeEach, executeAll, map_pure, Affected.add_empty]
  | cons request requests ih =>
      rw [executeEach, executeAll, executeWhole_eq, map_bind]
      refine congrArg (_ >>= ·) (funext fun first => ?_)
      simp only [ih, bind_pure_comp, Functor.map_map]
      exact congrArg (· <$> executeAll site requests) (funext (Affected.add_assoc sofar first))

end Exchange

/-! ### Statements -/

/-- Waiting for each request of an insertion comes to the same. -/
theorem Insert.executeWhole_eq (i : Insert) : i.executeWhole = i.execute := by
  have hAdd : Affected.add {} = id := funext Affected.empty_add
  simp only [executeWhole, execute, Exchange.executeEach_eq, hAdd, id_map]

theorem Update.executeWhole_eq (u : Update) : u.executeWhole = u.execute := by
  simp only [executeWhole, execute, Exchange.executeWhole_eq]

theorem Delete.executeWhole_eq (x : Delete) : x.executeWhole = x.execute := by
  simp only [executeWhole, execute, Exchange.executeWhole_eq]

/-! ### Batches -/

namespace Repository

variable {e : Entity}

theorem insertWhole_eq (r : Repository e) (record : Record e) :
    r.insertWhole record = r.insert record := by
  rw [insertWhole, insert, Insert.executeWhole_eq]

/-- The statements of a chunk, and behind them what is left of the batch. -/
theorem runBatch_append (site : Site) (chunks index : Nat) (completed : UInt64)
    (requests : List Request) (later : List (Nat × Request)) :
    runBatch site chunks completed (requests.map (index, ·) ++ later) =
      runChunk site chunks index completed requests >>= fun completed =>
        runBatch site chunks completed later := by
  induction requests generalizing completed with
  | nil => rfl
  | cons request requests ih =>
      refine Exchange.ext fun w => ?_
      rw [runChunk, bind_assoc, Exchange.runOver_bind, Exchange.within, Exchange.runOver_mk,
        Exchange.executeWhole_eq, List.map_cons, List.cons_append, runBatch, Exchange.runOver_mk]
      rcases (Exchange.execute site request).runOver w with ⟨f | affected, w'⟩
      · rfl
      · exact congrFun (ih (completed + affected.rows)) w'

/-- Chunk by chunk the statements of a batch are run as in one list of all of them. -/
theorem runChunks_eq (site : Site) (chunks index : Nat) (completed : UInt64)
    (compiled : List (List Request)) :
    runChunks site chunks index completed compiled =
      runBatch site chunks completed (indexed index compiled) := by
  induction compiled generalizing index completed with
  | nil => rfl
  | cons requests later ih =>
      rw [runChunks, indexed, runBatch_append]
      exact congrArg (_ >>= ·) (funext fun completed => ih (index + 1) completed)

/-- The loop over whole replies and the loop over single items insert the same. -/
theorem insertBatchWhole_eq (r : Repository e) (records : List (Record e)) (size : Option Nat) :
    r.insertBatchWhole records size = r.insertBatch records size := by
  simp only [insertBatchWhole, insertBatch, runChunks_eq]

end Repository

/-! ### Sessions -/

namespace Session

/-- The statements of a step run to the same count, or to the same failure. -/
theorem runOver_runWhole (site : Site) (count : Nat) (requests : List Request) (w : Wire) :
    (runWhole site count requests).runOver w =
      (match (runRequests site count w requests).1 with
        | (count, none) => .ok count
        | (_, some f) => .error f, (runRequests site count w requests).2) := by
  induction requests generalizing count w with
  | nil => rfl
  | cons request requests ih =>
      rw [runWhole, Exchange.runOver_bind, Exchange.executeWhole_eq, runRequests]
      rcases (Exchange.execute site request).runOver w with ⟨f | affected, w'⟩
      · rfl
      · exact ih (count + 1) w'

/-- What a commit leaves behind when its steps are over. -/
def finish (s : Session) (db : Database) :
    Progress × Wire → Result Nat × Session × Database × Wire
  | ({ failure := some e, table := some t, applied := true, .. }, w) => (.error e, s, db.put t, w)
  | ({ failure := some e, .. }, w) => (.error e, s, db, w)
  | ({ count, .. }, w) =>
    (.ok count, { s with state := .committed }, db.put (s.target.merged (s.known? db)), w)

/-- Steps that register at once what they come to do so as when they are over. -/
theorem commitSteps_eq (s : Session) (db : Database) (known : Option Table) (applied : Bool)
    (count : Nat) (w : Wire) (steps : List Step) :
    s.commitSteps db known applied count w steps =
      s.finish db (s.runSteps db { table := known, applied, count } w steps) := by
  induction steps generalizing known applied count w with
  | nil => cases known <;> cases applied <;> rfl
  | cons step steps ih =>
      rw [commitSteps, runOver_runWhole, runSteps]
      rcases runRequests s.site count w (s.stepRequests db step) with ⟨⟨count', _ | f⟩, w'⟩
      · exact ih ..
      · cases known <;> cases applied <;> rfl

/-- The loop over whole replies and the loop over single items migrate the same. -/
theorem commitWhole_eq (s : Session) (db : Database) (w : Wire) :
    s.commitWhole db w = s.commit db w := by
  rw [commitWhole, commit]
  cases s.plan db with
  | error f => rfl
  | ok steps => exact s.commitSteps_eq db (s.known? db) false 0 w steps

end Session

end SqlMapper
