import SqlMapper.Proofs.Exchange.Surfaced
import SqlMapper.Proofs.Record.Fallback
import SqlMapper.Proofs.Refusal.Innocence

/-! Refusals send nothing. What an operation sends has been compiled before its first request, or
cannot fail to compile any more. -/
namespace SqlMapper

open BlockingExecutor (Fails)
open Exchange (innocent_bind innocent_ofResult innocent_compiled refusesUnsent_bind
  refusesUnsent_compiled)
open Wire (Innocent RefusesUnsent)

/-- The outcome of a run that tells a failure beside what came before it. -/
def Wire.EndsIn {α : Type} (a : α × Option Failure) (f : Failure) : Prop := a.2 = some f

/-! ### Statements -/

/-- An insertion that compiles is refused nowhere later. -/
theorem Insert.innocent_execute {i : Insert} {requests : List Request}
    (h : i.compile = .ok requests) : Innocent Fails i.execute.runOver :=
  innocent_compiled h (Exchange.innocent_executeAll _ _)

/-- A refused insertion has sent nothing. -/
theorem Insert.refusesUnsent (i : Insert) : RefusesUnsent Fails i.execute.runOver :=
  refusesUnsent_compiled fun _ _ => (Exchange.innocent_executeAll _ _).refusesUnsent

/-- An update that compiles is refused nowhere later. -/
theorem Update.innocent_execute {u : Update} {request : Request} (h : u.compile = .ok request) :
    Innocent Fails u.execute.runOver :=
  innocent_compiled h (Exchange.innocent_execute _ _)

/-- A refused update has sent nothing. -/
theorem Update.refusesUnsent (u : Update) : RefusesUnsent Fails u.execute.runOver :=
  refusesUnsent_compiled fun _ _ => (Exchange.innocent_execute _ _).refusesUnsent

/-- A refused deletion has sent nothing. -/
theorem Delete.refusesUnsent (x : Delete) : RefusesUnsent Fails x.execute.runOver :=
  refusesUnsent_compiled fun _ _ => (Exchange.innocent_execute _ _).refusesUnsent

namespace Query

theorem innocent_count {q : Query} {request : Request} (h : q.countRequest = .ok request) :
    Innocent Fails q.count.runOver := by
  refine innocent_compiled h (innocent_bind (Exchange.innocent_fetchFirst _ _) fun first => ?_)
  cases first with
  | none => exact innocent_ofResult (.ok _)
  | some row => exact innocent_ofResult (total_fails _ row)

/-- A refused count has sent nothing. -/
theorem refusesUnsent_count (q : Query) : RefusesUnsent Fails q.count.runOver := by
  cases hCompile : q.countRequest with
  | error f =>
      rw [count, hCompile]
      exact Wire.refusesUnsent_done fun _ => rfl
  | ok request => exact (innocent_count hCompile).refusesUnsent

theorem refusesUnsent_countWhole (q : Query) : RefusesUnsent Fails q.countWhole.runOver := by
  refine refusesUnsent_compiled fun request _ => Innocent.refusesUnsent ?_
  rw [Exchange.fetchWhole_eq]
  refine innocent_bind (Exchange.innocent_fetch _ _ _) fun rows => ?_
  cases rows.head? with
  | none => exact innocent_ofResult (.ok _)
  | some row => exact innocent_ofResult (total_fails _ row)

/-- A refused stream has sent nothing. -/
theorem refusesUnsent_stream (q : Query) (take : Option Nat) (stop : Row → Bool) :
    RefusesUnsent Wire.EndsIn (q.stream take stop) := by
  by_cases hTake : take = some 0
  · exact Wire.refusesUnsent_done fun w => by rw [stream, if_pos hTake]
  · cases hCompile : q.compile with
    | error f =>
        exact Wire.refusesUnsent_done (BlockingExecutor.stream_of_error hTake hCompile)
    | ok request =>
        have hStream : q.stream take stop = fun w => w.fetch (q.site .query) request
            fun n row => take == some n || stop row := by
          funext w
          rw [stream, if_neg hTake, hCompile]
        rw [hStream]
        exact (Exchange.innocent_rows _ _ _).refusesUnsent

/-- All of a stream, or what ended it early. -/
def whole {α : Type} (outcome : α × Option Failure) : Result α := outcome.2.elim (.ok outcome.1) .error

/-- A stream read to its end fails as the stream does. -/
theorem endsIn_of_whole {α : Type} (a : α × Option Failure) (f : Failure) (h : whole a = .error f) :
    Wire.EndsIn a f := by
  obtain ⟨rows, _ | f'⟩ := a
  · cases h
  · exact congrArg some (Except.error.inj h)

theorem refusesUnsent_collect (q : Query) : RefusesUnsent Fails q.collect.runOver :=
  (q.refusesUnsent_stream none _).map whole (fun _ => rfl) fun a f h _ => endsIn_of_whole a f h

theorem refusesUnsent_fetch (q : Query) : RefusesUnsent Fails q.fetch.runOver := by
  refine refusesUnsent_compiled fun request _ => Innocent.refusesUnsent ?_
  rw [Exchange.fetchWhole_eq]
  exact Exchange.innocent_fetch _ _ _

end Query

/-! ### Records -/

namespace Repository

variable {e : Entity} (r : Repository e)

/-- A refused stream of records has sent nothing. -/
theorem refusesUnsent_stream (q : Query) (take : Option Nat) :
    RefusesUnsent Wire.EndsIn (r.stream q take) := by
  refine (q.refusesUnsent_stream take _).map (BlockingExecutor.wrapped r.mapping e) (fun _ => rfl) ?_
  rintro ⟨rows, failure⟩ f hEnd hRefuses
  rw [Wire.EndsIn, BlockingExecutor.wrapped] at hEnd
  cases hWrap : (r.mapping.wrapAll e rows).2 with
  | none =>
      rw [hWrap] at hEnd
      exact hEnd
  | some unreadable =>
      rw [hWrap] at hEnd
      obtain rfl := Option.some.inj hEnd
      exact absurd hRefuses (Mapping.wrapAll_fails hWrap)

theorem refusesUnsent_collect (q : Query) : RefusesUnsent Fails (r.collect q).runOver :=
  (r.refusesUnsent_stream q none).map Query.whole (fun _ => rfl)
    fun a f h _ => Query.endsIn_of_whole a f h

theorem refusesUnsent_fetch (q : Query) : RefusesUnsent Fails (r.fetch q).runOver := by
  rw [fetch_eq]
  refine refusesUnsent_bind q.refusesUnsent_fetch fun rows => innocent_ofResult ?_
  intro f hFails
  exact Mapping.wrapAll_fails (Query.endsIn_of_whole (r.mapping.wrapAll e rows) f hFails)

theorem refusesUnsent_fetchOne (q : Query) : RefusesUnsent Fails (r.fetchOne q).runOver := by
  refine (r.refusesUnsent_stream q.first (some 1)).map BlockingExecutor.firstOf (fun w => ?_) ?_
  · rw [fetchOne, Exchange.runOver_mk]
    rcases r.stream q.first (some 1) w with ⟨⟨_ | _, _⟩, _⟩ <;> rfl
  · rintro ⟨_ | ⟨record, records⟩, _ | f'⟩ f hEnd _
    · cases hEnd
    · exact congrArg some (Except.error.inj hEnd)
    · cases hEnd
    · cases hEnd

/-- A refused search for an identity has sent nothing. -/
theorem refusesUnsent_findById (id : Value) : RefusesUnsent Fails (r.findById id).runOver :=
  refusesUnsent_compiled fun _ _ => r.refusesUnsent_fetchOne _

theorem refusesUnsent_findByIdWhole (id : Value) :
    RefusesUnsent Fails (r.findByIdWhole id).runOver :=
  refusesUnsent_compiled fun _ _ =>
    refusesUnsent_bind (r.refusesUnsent_fetch _) fun _ => innocent_ofResult (.ok _)

/-- A refused deletion by identity has sent nothing. -/
theorem refusesUnsent_deleteById (id : Value) : RefusesUnsent Fails (r.deleteById id).runOver :=
  refusesUnsent_compiled fun _ _ =>
    refusesUnsent_bind (Delete.refusesUnsent _) fun _ => innocent_ofResult (.ok _)

/-- A refused insertion of a record has sent nothing. -/
theorem refusesUnsent_insert (record : Record e) : RefusesUnsent Fails (r.insert record).runOver :=
  refusesUnsent_bind (Insert.refusesUnsent _) fun _ => innocent_ofResult (.ok _)

/-- The requests of a batch are refused nowhere: all are compiled before the first is sent. -/
theorem innocent_runBatch (site : Site) (total : Nat) (completed : UInt64)
    (listed : List (Nat × Request)) : Innocent Fails (runBatch site total completed listed).runOver := by
  induction listed generalizing completed with
  | nil => exact innocent_ofResult (.ok _)
  | cons entry later ih =>
      obtain ⟨index, request⟩ := entry
      refine (Exchange.innocent_execute site request).andThen _
        (runOver_runBatch_cons site total completed index request later) fun outcome hOutcome => ?_
      cases outcome with
      | error f =>
          refine Wire.innocent_done (fun _ => rfl) fun _ hFails => ?_
          rw [← Except.error.inj hFails]
          exact Failure.not_refuses_under rfl (hOutcome f rfl)
      | ok affected => exact ih _

/-- A refused batch has sent nothing, not even its first chunk. -/
theorem refusesUnsent_insertBatch (records : List (Record e)) (size : Option Nat) :
    RefusesUnsent Fails (r.insertBatch records size).runOver := by
  rw [insertBatch]
  split
  · exact Wire.refusesUnsent_done fun _ => rfl
  · dsimp only
    split
    · exact Wire.refusesUnsent_done fun _ => rfl
    · exact refusesUnsent_compiled fun _ _ => (innocent_runBatch _ _ _ _).refusesUnsent

/-- Where there is no upsert, only the count can still be refused when the key is known: the insertion
and the update that may follow it are sure to compile. -/
theorem refusesUnsent_save (record : Record e) : RefusesUnsent Fails (r.save record).runOver := by
  refine refusesUnsent_compiled fun requests? hUpsert => ?_
  cases requests? with
  | some requests =>
      exact (innocent_bind (Exchange.innocent_executeAll _ _) fun _ =>
        innocent_ofResult (.ok _)).refusesUnsent
  | none =>
      refine refusesUnsent_compiled fun c hKey => ?_
      obtain ⟨columns, types, hFills⟩ := fills_of_compileUpsert hUpsert
      cases hCount : (r.query.narrow c).countRequest with
      | error f =>
          rw [Query.count, hCount]
          exact Wire.refusesUnsent_done fun _ => rfl
      | ok count =>
          refine refusesUnsent_bind (Query.refusesUnsent_count _) fun found => ?_
          split
          next =>
            have hInsert := Insert.innocent_execute (compile_insertion hFills (List.cons_ne_nil record []))
            exact innocent_bind hInsert fun _ => innocent_ofResult (.ok _)
          next =>
            split
            next u hUpdate =>
              obtain ⟨request, hCompile⟩ := compile_updateOf? hFills hKey hCount hUpdate
              exact innocent_bind (Update.innocent_execute hCompile) fun _ => innocent_ofResult (.ok _)
            next => exact innocent_ofResult (.ok _)

end Repository

/-! ### Sessions -/

namespace Session

theorem innocent_runRequests (site : Site) (count : Nat) (requests : List Request) :
    Innocent Wire.EndsIn (runRequests site count · requests) := by
  induction requests generalizing count with
  | nil => exact Wire.innocent_done (fun _ => rfl) (by rintro _ ⟨⟩)
  | cons request later ih =>
      refine (Exchange.innocent_execute site request).andThen _
        (runRequests_cons site count request later) fun outcome hOutcome => ?_
      cases outcome with
      | error f =>
          refine Wire.innocent_done (fun _ => rfl) fun _ hFails => ?_
          rw [← Option.some.inj hFails]
          exact hOutcome f rfl
      | ok affected => exact ih (count + 1)

/-- The statements of a plan are refused nowhere: all are compiled before the first is sent. -/
theorem innocent_runSteps (s : Session) (db : Database) (p : Progress) (steps : List Step)
    (hp : p.failure = none) :
    Innocent (fun p f => p.failure = some f) (s.runSteps db p · steps) := by
  induction steps generalizing p with
  | nil => exact Wire.innocent_done (fun _ => rfl) (by simp [hp])
  | cons step later ih =>
      refine (innocent_runRequests s.site p.count _).andThen _ (s.runSteps_cons db p step later) ?_
      rintro ⟨count, _ | f⟩ hOutcome
      · exact ih _ rfl
      · refine Wire.innocent_done (fun _ => rfl) fun _ hFails => ?_
        rw [← Option.some.inj hFails]
        exact hOutcome f rfl

/-- A commit fails with the failure of a step. -/
theorem failure_of_afterSteps {s : Session} {db : Database} {p : Progress} {w : Wire} {f : Failure}
    (h : (s.afterSteps db p w).1.1 = .error f) : p.failure = some f := by
  rcases p with ⟨_ | table, _ | _, count, _ | failure⟩ <;> cases h <;> rfl

/-- A commit with a plan is refused nowhere later. -/
theorem innocent_commit {s : Session} {db : Database} {steps : List Step}
    (hPlan : s.plan db = .ok steps) :
    Innocent (fun a f => a.1 = .error f) (s.commitOver db) := by
  refine (s.innocent_runSteps db { table := s.known? db } steps rfl).andThen _ (commitOver_eq hPlan) ?_
  intro p hp w hPlain
  refine ⟨?_, fun f hFails => hp f (failure_of_afterSteps hFails)⟩
  rcases p with ⟨_ | table, _ | _, count, _ | failure⟩ <;> exact hPlain

theorem commit_of_error {s : Session} {db : Database} {f : Failure} (hPlan : s.plan db = .error f)
    (w : Wire) : s.commitOver db w = ((.error f, s, db), w) := by
  rw [commitOver, commit, hPlan]

/-- A refused commit has sent nothing. -/
theorem refusesUnsent_commit (s : Session) (db : Database) :
    RefusesUnsent (fun a f => a.1 = .error f) (s.commitOver db) := by
  cases hPlan : s.plan db with
  | error f => exact Wire.refusesUnsent_done (commit_of_error hPlan)
  | ok steps => exact (innocent_commit hPlan).refusesUnsent

/-- A commit that is refused leaves the session and the database as they were. -/
theorem commit_kept {s : Session} {db : Database} {w : Wire} (hPlain : w.Plain) {f : Failure}
    (hFails : (s.commitOver db w).1.1 = .error f) (hRefuses : f.Refuses) :
    (s.commitOver db w).1.2 = (s, db) := by
  cases hPlan : s.plan db with
  | error f' => rw [commit_of_error hPlan]
  | ok steps => exact absurd hRefuses ((innocent_commit hPlan w hPlain).2 f hFails)

end Session

/-! ### All operations -/

namespace Paired

variable {α : Type}

/-- The outcome is the failure, with how far it came if it is that of a batch. -/
def EndsIn : {α : Type} → Paired α → α → Failure → Prop
  | _, insertBatch .., a, f => a = .error f
  | _, p, a, f => p.Told a f

/-- A commit has left the session and the database as they were. -/
def Keeps : {α : Type} → Paired α → α → Prop
  | _, commit s db, a => a.2 = (s, db)
  | _, _, _ => True

/-- The blocking form of every operation refuses before it sends. -/
theorem refusesUnsent_blocking (p : Paired α) : RefusesUnsent p.EndsIn p.blocking := by
  cases p with
  | insert i =>
      rw [blocking, i.executeWhole_eq]
      exact i.refusesUnsent
  | update u =>
      rw [blocking, u.executeWhole_eq]
      exact u.refusesUnsent
  | delete x =>
      rw [blocking, x.executeWhole_eq]
      exact x.refusesUnsent
  | rows q => exact q.refusesUnsent_fetch
  | count q => exact q.refusesUnsent_countWhole
  | records r q => exact r.refusesUnsent_fetch q
  | insertRecord r record =>
      rw [blocking, r.insertWhole_eq]
      exact r.refusesUnsent_insert record
  | insertBatch r batch size =>
      rw [blocking, r.insertBatchWhole_eq]
      exact r.refusesUnsent_insertBatch batch size
  | findById r id => exact r.refusesUnsent_findByIdWhole id
  | commit s db =>
      rw [blocking, s.commitWholeOver_eq]
      exact s.refusesUnsent_commit db

/-- The async form of every operation refuses before it sends. -/
theorem refusesUnsent_async (p : Paired α) : RefusesUnsent p.EndsIn p.async := by
  cases p with
  | insert i => exact i.refusesUnsent
  | update u => exact u.refusesUnsent
  | delete x => exact x.refusesUnsent
  | rows q => exact q.refusesUnsent_collect
  | count q => exact q.refusesUnsent_count
  | records r q => exact r.refusesUnsent_collect q
  | insertRecord r record => exact r.refusesUnsent_insert record
  | insertBatch r batch size => exact r.refusesUnsent_insertBatch batch size
  | findById r id => exact r.refusesUnsent_findById id
  | commit s db => exact s.refusesUnsent_commit db

/-- A refused operation keeps session and database, in both of its forms. -/
theorem keeps_of_refused (p : Paired α) {w : Wire} (hPlain : w.Plain) {f : Failure}
    (hRefuses : f.Refuses) :
    (p.EndsIn (p.blocking w).1 f → p.Keeps (p.blocking w).1) ∧
      (p.EndsIn (p.async w).1 f → p.Keeps (p.async w).1) := by
  cases p with
  | commit s db =>
      have hKept (hFails : (s.commitOver db w).1.1 = .error f) : (s.commitOver db w).1.2 = (s, db) :=
        Session.commit_kept hPlain hFails hRefuses
      rw [blocking, s.commitWholeOver_eq]
      exact ⟨hKept, hKept⟩
  | _ => exact ⟨fun _ => trivial, fun _ => trivial⟩

end Paired

namespace Call

variable {α : Type} {streamed : Bool}

/-- The outcome is the failure, or a stream that ends with it. -/
def EndsIn : {streamed : Bool} → {α : Type} → Call streamed α → α → Failure → Prop
  | _, _, blocking p => p.EndsIn
  | _, _, async p => p.EndsIn
  | _, _, stream .. => Wire.EndsIn
  | _, _, streamRecords .. => Wire.EndsIn
  | _, _, fetchOne .. => Fails
  | _, _, save .. => Fails
  | _, _, deleteById .. => Fails

/-- A commit has left the session and the database as they were. -/
def Keeps : {streamed : Bool} → {α : Type} → Call streamed α → α → Prop
  | _, _, blocking p => p.Keeps
  | _, _, async p => p.Keeps
  | _, _, _ => fun _ => True

/-- Every operation, direct or streamed, refuses before it sends. -/
theorem refusesUnsent (c : Call streamed α) : RefusesUnsent c.EndsIn c.run := by
  cases c with
  | blocking p => exact p.refusesUnsent_blocking
  | async p => exact p.refusesUnsent_async
  | stream q take stop => exact q.refusesUnsent_stream take stop
  | streamRecords r q take => exact r.refusesUnsent_stream q take
  | fetchOne r q => exact r.refusesUnsent_fetchOne q
  | save r record => exact r.refusesUnsent_save record
  | deleteById r id => exact r.refusesUnsent_deleteById id

/-- An operation that is refused has sent nothing, whatever arrives over the wire, if the database
itself tells no refusals. A commit that is refused has also left the session and the database as they
were. -/
theorem unsent_of_refused (c : Call streamed α) {w : Wire} (hPlain : w.Plain) {f : Failure}
    (hEnds : c.EndsIn (c.run w).1 f) (hRefuses : f.Refuses) :
    (c.run w).2 = w ∧ c.Keeps (c.run w).1 := by
  refine ⟨(c.refusesUnsent w hPlain).2 f hEnds hRefuses, ?_⟩
  cases c with
  | blocking p => exact (p.keeps_of_refused hPlain hRefuses).1 hEnds
  | async p => exact (p.keeps_of_refused hPlain hRefuses).2 hEnds
  | _ => trivial

/-- A record without an upsert whose key is not mapped to a property, saved to a database that fails. -/
theorem unsent_of_refused_saved :
    let e : Entity := ⟨"Note", [⟨"text", .text⟩]⟩
    let t : Table := { name := "notes", columns := [
      (Column.ofTy "id" (.integer .int64)).asKey, .ofTy "text" .text] }
    let r : Repository e :=
      ⟨t, { Dialect.generic with upsert := .none }, (t.mapping e.name e.propertyNames).1, 100⟩
    let c := save r ⟨("ink", ())⟩
    let w := Wire.scripted .native [[.failure "disk full"]]
    ∃ f, c.EndsIn (c.run w).1 f ∧ f.Refuses ∧ (c.run w).2 = w := by
  intro e t r c w
  have hPlain : w.Plain := by
    intro requests f hFailed
    have hReply : w.answer requests = [.failure "disk full"] ∨ w.answer requests = [] := by
      dsimp only [w, Wire.scripted]
      cases requests.length - 1 with
      | zero => exact .inl rfl
      | succ n => exact .inr (by simp)
    rcases hReply with hReply | hReply <;> rw [hReply] at hFailed
    · cases List.mem_singleton.mp hFailed
      simp [Failure.layers, Failure.fault, Failure.of, Layer.site?]
    · cases hFailed
  have hEnds : c.EndsIn (c.run w).1 (.metadata ⟨.update, "notes", some "id"⟩ .keyNotMapped) := rfl
  have hRefuses : (Failure.metadata ⟨.update, "notes", some "id"⟩ .keyNotMapped).Refuses :=
    ⟨_, List.mem_singleton_self _, rfl⟩
  exact ⟨_, hEnds, hRefuses, (unsent_of_refused c hPlain hEnds hRefuses).1⟩

end Call

end SqlMapper
