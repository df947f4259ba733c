import SqlMapper.Exchange.Statements
import SqlMapper.Proofs.Exchange.Whole
import SqlMapper.Proofs.Statement.Basic

/-! Traces of what is sent to an executor. An operation sends requests until one fails, and then it
ends and tells the failure. Many operations have two forms, one on a blocking executor itself and one
on the stream of its outputs; such forms have one trace and one outcome. -/
namespace SqlMapper

namespace Statement

/-- The operation that the failures of the statement name. -/
def operation : Statement → Operation
  | insert _ => .insert
  | update _ => .update
  | delete _ => .delete
  | select _ => .query
  | count _ => .count

/-- A request of the statement, under the operation and the table of the statement. -/
def Issues (x : Statement) (entry : Site × Request) : Prop :=
  entry.1 = ⟨x.operation, x.table.name, none⟩ ∧ ∃ requests, x.compile = .ok requests ∧ entry.2 ∈ requests

/-- A statement of one request. -/
theorem issues_single {x : Statement} {result : Result Request} {request : Request}
    (hCompile : x.compile = result.map ([·])) (h : result = .ok request) :
    x.Issues (⟨x.operation, x.table.name, none⟩, request) := by
  refine ⟨rfl, [request], ?_, List.mem_singleton_self request⟩
  rw [hCompile, h]
  rfl

end Statement

namespace BlockingExecutor

variable {α β : Type} {B : BlockingExecutor} {streamed : Bool} {sent : List Request}
  {log later : List (Site × Request)} {f? : Option Failure}
  {issues issues' : Site × Request → Prop} {told : α → Failure → Prop} {told' : β → Failure → Prop}

/-! ### Traces -/

/-- How the executor answers the requests of a log, each behind those before it: all of them, or all
but the last, whose failure comes with its site and the request. -/
inductive Answers (B : BlockingExecutor) :
    List Request → List (Site × Request) → Option Failure → Prop
  | done (sent : List Request) : B.Answers sent [] none
  | failed {sent : List Request} {request : Request} {failure : Failure} (site : Site)
      (h : B (sent ++ [request]) = .error failure) :
      B.Answers sent [(site, request)] (some (Wire.executionFailure site request failure))
  | answered {sent : List Request} {request : Request} {outputs : List Output} {f? : Option Failure}
      {log : List (Site × Request)} (site : Site) (h : B (sent ++ [request]) = .ok outputs)
      (hLater : B.Answers (sent ++ [request]) log f?) :
      B.Answers sent ((site, request) :: log) f?

/-- Answers go on where the ones before ended without a failure. -/
theorem Answers.append (h : B.Answers sent log none)
    (hLater : B.Answers (sent ++ log.map Prod.snd) later f?) :
    B.Answers sent (log ++ later) f? := by
  induction log generalizing sent with
  | nil => simpa using hLater
  | cons entry log ih =>
      cases h with
      | answered site hOutputs hRest =>
          refine .answered site hOutputs (ih hRest ?_)
          simpa using hLater

/-- Nothing is sent after a request that fails. -/
theorem Answers.last_of_error {site : Site} {request : Request} {failure : Failure}
    (h : B.Answers sent (log ++ (site, request) :: later) f?)
    (hError : B (sent ++ log.map Prod.snd ++ [request]) = .error failure) :
    later = [] ∧ f? = some (Wire.executionFailure site request failure) := by
  induction log generalizing sent with
  | nil =>
      rw [List.map_nil, List.append_nil] at hError
      cases h with
      | failed _ h =>
          obtain rfl := Except.error.inj (h.symm.trans hError)
          exact ⟨rfl, rfl⟩
      | answered _ h _ => cases h.symm.trans hError
  | cons entry log ih =>
      -- The first entry is not the last of the log, so it was answered.
      cases hEntries : log ++ (site, request) :: later with
      | nil => simp at hEntries
      | cons next rest =>
          rw [List.cons_append, hEntries] at h
          cases h with
          | answered _ _ hRest =>
              rw [← hEntries] at hRest
              refine ih hRest ?_
              simpa using hError

/-- An outcome behind a log of issued requests tells the failure of the last one, if it failed. -/
structure Traced (B : BlockingExecutor) (sent : List Request) (issues : Site × Request → Prop)
    (told : α → Failure → Prop) (outcome : α) (log : List (Site × Request))
    (f? : Option Failure) : Prop where
  answers : B.Answers sent log f?
  issued : ∀ entry ∈ log, issues entry
  told : ∀ failure, f? = some failure → told outcome failure

theorem Traced.mono {outcome : α} (h : B.Traced sent issues told outcome log f?)
    (hIssues : ∀ entry, issues entry → issues' entry) : B.Traced sent issues' told outcome log f? :=
  ⟨h.answers, fun entry hEntry => hIssues entry (h.issued entry hEntry), h.told⟩

/-- An outcome behind one request. -/
theorem exists_traced {site : Site} {request : Request} {outcome : α} (h : issues (site, request))
    (hTold : ∀ failure, B (sent ++ [request]) = .error failure →
      told outcome (Wire.executionFailure site request failure)) :
    ∃ f?, B.Traced sent issues told outcome [(site, request)] f? := by
  have hIssued : ∀ entry ∈ [(site, request)], issues entry := by simpa using h
  cases hAnswer : B (sent ++ [request]) with
  | error failure =>
      refine ⟨_, .failed site hAnswer, hIssued, ?_⟩
      intro _ hSome
      rw [← Option.some.inj hSome]
      exact hTold failure hAnswer
  | ok outputs => exact ⟨none, .answered site hAnswer (.done _), hIssued, by simp⟩

/-- A run that sends until a request fails. -/
def Surfaces (B : BlockingExecutor) (streamed : Bool) (sent : List Request)
    (issues : Site × Request → Prop) (told : α → Failure → Prop) (x : Wire → α × Wire) : Prop :=
  ∃ outcome log f?, B.Traced sent issues told outcome log f? ∧
    x (B.wire streamed sent) = (outcome, B.wire streamed (sent ++ log.map Prod.snd))

/-- Two such runs, the first on the executor itself and the second on its stream, that send the same
and have the same outcome. -/
def Alike (B : BlockingExecutor) (sent : List Request) (issues : Site × Request → Prop)
    (told : α → Failure → Prop) (x y : Wire → α × Wire) : Prop :=
  ∃ outcome log f?, B.Traced sent issues told outcome log f? ∧
    x (B.wire false sent) = (outcome, B.wire false (sent ++ log.map Prod.snd)) ∧
    y (B.wire true sent) = (outcome, B.wire true (sent ++ log.map Prod.snd))

/-- What two forms have in common holds of the blocking one. -/
theorem Alike.direct {x y : Wire → α × Wire} (h : B.Alike sent issues told x y) :
    B.Surfaces false sent issues told x := by
  obtain ⟨outcome, log, f?, hTraced, hx, -⟩ := h
  exact ⟨outcome, log, f?, hTraced, hx⟩

/-- What two forms have in common holds of the streaming one. -/
theorem Alike.onStream {x y : Wire → α × Wire} (h : B.Alike sent issues told x y) :
    B.Surfaces true sent issues told y := by
  obtain ⟨outcome, log, f?, hTraced, -, hy⟩ := h
  exact ⟨outcome, log, f?, hTraced, hy⟩

theorem Alike.mono {x y : Wire → α × Wire} (h : B.Alike sent issues told x y)
    (hIssues : ∀ entry, issues entry → issues' entry) : B.Alike sent issues' told x y := by
  obtain ⟨outcome, log, f?, hTraced, hRuns⟩ := h
  exact ⟨outcome, log, f?, hTraced.mono hIssues, hRuns⟩

/-- What runs alike over these wires is alike. -/
theorem Alike.congr {x x' y y' : Wire → α × Wire} (h : B.Alike sent issues told x y)
    (hx : x' (B.wire false sent) = x (B.wire false sent))
    (hy : y' (B.wire true sent) = y (B.wire true sent)) : B.Alike sent issues told x' y' := by
  obtain ⟨outcome, log, f?, hTraced, hEndX, hEndY⟩ := h
  exact ⟨outcome, log, f?, hTraced, hx.trans hEndX, hy.trans hEndY⟩

/-- An outcome that is looked at in another way. -/
theorem Surfaces.map {x : Wire → α × Wire} {z : Wire → β × Wire} (f : α → β)
    (hz : ∀ w, z w = (f (x w).1, (x w).2)) (hTold : ∀ a failure, told a failure → told' (f a) failure)
    (h : B.Surfaces streamed sent issues told x) : B.Surfaces streamed sent issues told' z := by
  obtain ⟨a, log, f?, hTraced, hx⟩ := h
  refine ⟨f a, log, f?, ⟨hTraced.answers, hTraced.issued, ?_⟩, ?_⟩
  · exact fun failure hSome => hTold a failure (hTraced.told failure hSome)
  · rw [hz, hx]

/-! ### Runs in parts -/

theorem alike_done {x y : Wire → α × Wire} {a : α} (hx : ∀ w, x w = (a, w))
    (hy : ∀ w, y w = (a, w)) : B.Alike sent issues told x y := by
  refine ⟨a, [], none, ⟨.done sent, by simp, by simp⟩, ?_, ?_⟩
  · rw [hx, List.map_nil, List.append_nil]
  · rw [hy, List.map_nil, List.append_nil]

theorem surfaces_done {x : Wire → α × Wire} {a : α} (hx : ∀ w, x w = (a, w)) :
    B.Surfaces streamed sent issues told x := by
  refine ⟨a, [], none, ⟨.done sent, by simp, by simp⟩, ?_⟩
  rw [hx, List.map_nil, List.append_nil]

section Request

variable {site : Site} {request : Request} {x y : Wire → α × Wire} {outcome : α}

/-- A single request surfaces its failure. -/
theorem surfaces_request (h : issues (site, request))
    (hTold : ∀ failure, B (sent ++ [request]) = .error failure →
      told outcome (Wire.executionFailure site request failure))
    (hx : x (B.wire streamed sent) = (outcome, B.wire streamed (sent ++ [request]))) :
    B.Surfaces streamed sent issues told x := by
  obtain ⟨f?, hTraced⟩ := exists_traced h hTold
  exact ⟨outcome, [(site, request)], f?, hTraced, hx⟩

/-- A single request comes to the same in both forms. -/
theorem alike_request (h : issues (site, request))
    (hTold : ∀ failure, B (sent ++ [request]) = .error failure →
      told outcome (Wire.executionFailure site request failure))
    (hx : x (B.wire false sent) = (outcome, B.wire false (sent ++ [request])))
    (hy : y (B.wire true sent) = (outcome, B.wire true (sent ++ [request]))) :
    B.Alike sent issues told x y := by
  obtain ⟨f?, hTraced⟩ := exists_traced h hTold
  exact ⟨outcome, [(site, request)], f?, hTraced, hx, hy⟩

end Request

/-- A first part, and what follows it unless its outcome tells a failure. -/
theorem Alike.andThen {x y : Wire → α × Wire} {z z' : Wire → β × Wire} (f g : α → Wire → β × Wire)
    (hz : ∀ w, z w = f (x w).1 (x w).2) (hz' : ∀ w, z' w = g (y w).1 (y w).2)
    (hFirst : B.Alike sent issues told x y)
    (hTold : ∀ a failure, told a failure →
      ∃ outcome, told' outcome failure ∧ f a = (outcome, ·) ∧ g a = (outcome, ·))
    (hNext : ∀ a sent', B.Alike sent' issues told' (f a) (g a)) :
    B.Alike sent issues told' z z' := by
  obtain ⟨a, log, f?, hTraced, hx, hy⟩ := hFirst
  -- A request that failed in the first part was the last one that either run sent.
  cases f? with
  | some failure =>
      obtain ⟨outcome, hOutcome, hf, hg⟩ := hTold a failure (hTraced.told failure rfl)
      refine ⟨outcome, log, some failure, ⟨hTraced.answers, hTraced.issued, ?_⟩, ?_, ?_⟩
      · intro _ hSome
        rwa [← Option.some.inj hSome]
      · rw [hz, hx, hf]
      · rw [hz', hy, hg]
  | none =>
      obtain ⟨outcome, later, f?, hLater, hf, hg⟩ := hNext a (sent ++ log.map Prod.snd)
      refine ⟨outcome, log ++ later, f?,
        ⟨hTraced.answers.append hLater.answers, ?_, hLater.told⟩, ?_, ?_⟩
      · rw [List.forall_mem_append]
        exact ⟨hTraced.issued, hLater.issued⟩
      · rw [hz, hx, hf, List.map_append, List.append_assoc]
      · rw [hz', hy, hg, List.map_append, List.append_assoc]

def Fails (a : Result α) (failure : Failure) : Prop := a = .error failure

/-- Forms that agree in both of their parts agree. -/
theorem Alike.bind {x y : Exchange α} {f g : α → Exchange β}
    (hFirst : B.Alike sent issues Fails x.runOver y.runOver)
    (hNext : ∀ a sent', B.Alike sent' issues Fails (f a).runOver (g a).runOver) :
    B.Alike sent issues Fails (x >>= f).runOver (y >>= g).runOver := by
  refine hFirst.andThen (ExceptT.bindCont f) (ExceptT.bindCont g) (fun _ => rfl) (fun _ => rfl) ?_ ?_
  · rintro _ failure rfl
    exact ⟨.error failure, rfl, rfl, rfl⟩
  · intro a sent'
    cases a with
    | error failure => exact alike_done (fun _ => rfl) (fun _ => rfl)
    | ok a => exact hNext a sent'

theorem alike_ofResult (a : Result α) : B.Alike sent issues Fails (Exchange.ofResult a).runOver
    (Exchange.ofResult a).runOver := alike_done (fun _ => rfl) (fun _ => rfl)

/-- What is compiled first is sent as it was compiled. -/
theorem alike_compiled {a : Result α} {f g : α → Exchange β} {told : Result β → Failure → Prop}
    (h : ∀ x, a = .ok x → B.Alike sent issues told (f x).runOver (g x).runOver) :
    B.Alike sent issues told (Exchange.ofResult a >>= f).runOver
      (Exchange.ofResult a >>= g).runOver := by
  cases a with
  | error failure => exact alike_done (fun _ => rfl) (fun _ => rfl)
  | ok x => exact h x rfl

/-! ### Modifications -/

/-- A modification comes to the same over both wires. -/
theorem alike_execute {site : Site} {request : Request} (h : issues (site, request)) :
    B.Alike sent issues Fails (Exchange.execute site request).runOver
      (Exchange.execute site request).runOver := by
  refine alike_request h ?_ (runOver_execute_direct site request) ?_
  · intro failure hError
    rw [Fails, execute, hError]
    rfl
  · rw [runOver_execute_streamed, execute_streaming]

/-- Modifications in order come to the same over both wires. -/
theorem alike_executeAll {site : Site} {requests : List Request}
    (h : ∀ request ∈ requests, issues (site, request)) :
    B.Alike sent issues Fails (Exchange.executeAll site requests).runOver
      (Exchange.executeAll site requests).runOver := by
  induction requests generalizing sent with
  | nil => exact alike_done (fun _ => rfl) (fun _ => rfl)
  | cons request requests ih =>
      rw [List.forall_mem_cons] at h
      refine (alike_execute h.1).bind fun first sent' => ?_
      exact (ih h.2).bind fun rest sent'' => alike_done (fun _ => rfl) (fun _ => rfl)

theorem alike_insert (i : Insert) :
    B.Alike sent (Statement.insert i).Issues Fails i.execute.runOver i.execute.runOver :=
  alike_compiled fun requests hCompile =>
    alike_executeAll fun _ hRequest => ⟨rfl, requests, hCompile, hRequest⟩

theorem alike_update (u : Update) :
    B.Alike sent (Statement.update u).Issues Fails u.execute.runOver u.execute.runOver :=
  alike_compiled fun _ hCompile => alike_execute (Statement.issues_single rfl hCompile)

theorem alike_delete (x : Delete) :
    B.Alike sent (Statement.delete x).Issues Fails x.execute.runOver x.execute.runOver :=
  alike_compiled fun _ hCompile => alike_execute (Statement.issues_single rfl hCompile)

/-! ### Queries -/

section Queries

variable {q : Query} {take : Option Nat} {stop : Row → Bool}

/-- A query that does not compile sends nothing. -/
theorem stream_of_error {failure : Failure} (hTake : take ≠ some 0) (h : q.compile = .error failure)
    (w : Wire) : q.stream take stop w = (([], some failure), w) := by
  rw [Query.stream, if_neg hTake, h]

/-- A query takes the rows of its request until there are enough. -/
theorem stream_wire {request : Request} (hTake : take ≠ some 0) (h : q.compile = .ok request) :
    q.stream take stop (B.wire streamed sent) =
      (match B.fetch (sent ++ [request]) with
        | .ok rows => (Reply.rowsUntil
            (if streamed then fun n row => take == some n || stop row else fun _ _ => false) 0 rows,
            none)
        | .error failure => ([], some (Wire.executionFailure (q.site .query) request failure)),
        B.wire streamed (sent ++ [request])) := by
  rw [Query.stream, if_neg hTake, h]
  exact fetch_wire (q.site .query) request _

/-- A query surfaces the failure of its request and gives no rows then. -/
theorem surfaces_stream (q : Query) (take : Option Nat) (stop : Row → Bool) :
    B.Surfaces streamed sent (Statement.select q).Issues
      (fun outcome failure => outcome = ([], some failure)) (q.stream take stop) := by
  by_cases hTake : take = some 0
  · exact surfaces_done fun w => by rw [Query.stream, if_pos hTake]
  · cases hCompile : q.compile with
    | error failure => exact surfaces_done (stream_of_error hTake hCompile)
    | ok request =>
        refine surfaces_request (Statement.issues_single rfl hCompile) ?_ (stream_wire hTake hCompile)
        intro failure hError
        rw [fetch, hError]
        rfl

/-- The rows of a whole reply are those of the executor. -/
theorem runOver_fetchWhole (site : Site) (request : Request) :
    (Exchange.fetchWhole site request).runOver (B.wire streamed sent) =
      ((B.fetch (sent ++ [request])).mapError (Wire.executionFailure site request),
        B.wire streamed (sent ++ [request])) := by
  rw [Exchange.fetchWhole_eq, runOver_fetch, ite_self]
  have hRows : Reply.rowsUntil (fun _ _ => false) 0 = id := funext (Reply.rowsUntil_never 0)
  rw [hRows, Except.map_id]
  rfl

theorem runOver_rows {request : Request} (h : q.compile = .ok request) :
    q.fetch.runOver (B.wire false sent) =
      ((B.fetch (sent ++ [request])).mapError (Wire.executionFailure (q.site .query) request),
        B.wire false (sent ++ [request])) := by
  rw [Query.fetch, h]
  exact runOver_fetchWhole (q.site .query) request

theorem collect_of_error {failure : Failure} (h : q.compile = .error failure) (w : Wire) :
    q.collect.runOver w = (.error failure, w) := by
  rw [Query.collect, Exchange.runOver_mk, stream_of_error (Option.some_ne_none 0).symm h]
  rfl

/-- All rows, taken one by one, are those of the executor. -/
theorem runOver_collect {request : Request} (h : q.compile = .ok request) :
    q.collect.runOver (B.wire true sent) =
      ((B.fetch (sent ++ [request])).mapError (Wire.executionFailure (q.site .query) request),
        B.wire true (sent ++ [request])) := by
  rw [Query.collect, Exchange.runOver_mk, stream_wire (Option.some_ne_none 0).symm h]
  cases B.fetch (sent ++ [request]) with
  | error failure => rfl
  | ok rows =>
      dsimp only
      rw [if_pos rfl]
      exact congrArg (fun rows => (Except.ok rows, B.wire true (sent ++ [request])))
        (Reply.rowsUntil_never 0 rows)

/-- All rows at once, and all rows one by one. -/
theorem alike_rows (q : Query) :
    B.Alike sent (Statement.select q).Issues Fails q.fetch.runOver q.collect.runOver := by
  cases hCompile : q.compile with
  | error failure =>
      refine alike_done (fun w => ?_) (collect_of_error hCompile)
      rw [Query.fetch, hCompile]
      rfl
  | ok request =>
      refine alike_request (Statement.issues_single rfl hCompile) ?_ (runOver_rows hCompile)
        (runOver_collect hCompile)
      intro failure hError
      rw [Fails, fetch, hError]
      rfl

/-- The first row is that of the executor. -/
theorem runOver_fetchFirst (site : Site) (request : Request) :
    (Exchange.fetchFirst site request).runOver (B.wire streamed sent) =
      (((B.fetch (sent ++ [request])).map List.head?).mapError
          (Wire.executionFailure site request), B.wire streamed (sent ++ [request])) := by
  rw [Exchange.fetchFirst, Exchange.runOver_bind, runOver_fetch]
  cases B.fetch (sent ++ [request]) with
  | error failure => rfl
  | ok rows => cases streamed <;> cases rows <;> rfl

/-- What a count makes of the first row of its reply. -/
def countOf (q : Query) : Option Row → Exchange Nat
  | none => return 0
  | some row => Exchange.ofResult (Query.total (q.site .count) row)

theorem alike_countOf (q : Query) (first : Option Row) :
    B.Alike sent issues Fails (countOf q first).runOver (countOf q first).runOver := by
  cases first with
  | none => exact alike_done (fun _ => rfl) (fun _ => rfl)
  | some row => exact alike_ofResult (Query.total (q.site .count) row)

/-- A count takes the first row of its request. -/
theorem count_eq (q : Query) : q.count = Exchange.ofResult q.countRequest >>= fun request =>
    Exchange.fetchFirst (q.site .count) request >>= countOf q := by
  rw [Query.count]
  congr

/-- Out of the whole reply a count takes the first row as well. -/
theorem countWhole_eq (q : Query) : q.countWhole = Exchange.ofResult q.countRequest >>= fun request =>
    Exchange.fetchWhole (q.site .count) request >>= fun rows => countOf q rows.head? := by
  rw [Query.countWhole]
  congr

/-- Both forms of a count come to the same. -/
theorem alike_count (q : Query) :
    B.Alike sent (Statement.count q).Issues Fails q.count.runOver q.count.runOver := by
  rw [count_eq]
  refine alike_compiled fun request hCompile => ?_
  refine Alike.bind ?_ fun first _ => alike_countOf q first
  refine alike_request (Statement.issues_single rfl hCompile) ?_ (runOver_fetchFirst _ request)
    (runOver_fetchFirst _ request)
  intro failure hError
  rw [Fails, fetch, hError]
  rfl

/-- The count is in the first row, whether the others are waited for or left. -/
theorem alike_countWhole (q : Query) :
    B.Alike sent (Statement.count q).Issues Fails q.countWhole.runOver q.count.runOver := by
  rw [count_eq, countWhole_eq]
  refine alike_compiled fun request hCompile => ?_
  have hRows : B.Alike sent (Statement.count q).Issues Fails
      (List.head? <$> Exchange.fetchWhole (q.site .count) request).runOver
      (Exchange.fetchFirst (q.site .count) request).runOver := by
    refine alike_request (Statement.issues_single rfl hCompile) ?_ ?_ (runOver_fetchFirst _ request)
    · intro failure hError
      rw [Fails, fetch, hError]
      rfl
    · rw [← bind_pure_comp, Exchange.runOver_bind, runOver_fetchWhole]
      cases B.fetch (sent ++ [request]) <;> rfl
  have hCount := hRows.bind fun first _ => alike_countOf q first
  rwa [bind_map_left] at hCount

end Queries

end BlockingExecutor

end SqlMapper
