import SqlMapper.Migration.Session
import SqlMapper.Proofs.Exchange.Trace
import SqlMapper.Proofs.Migration.Plan
import SqlMapper.Proofs.Record.Batch

/-! Operations that there are in two forms, one on a blocking executor and one on the stream of its
outputs. Both send the same requests and have the same outcome, on every executor. -/
namespace SqlMapper

/-! ### Records -/

namespace Reply

/-- A caller who leaves early misses nothing of a single row. -/
theorem rowsUntil_of_length_le {rows : List Row} (h : rows.length ≤ 1) (enough : Nat → Row → Bool)
    (seen : Nat) : rowsUntil enough seen rows = rows := by
  cases rows with
  | nil => rfl
  | cons row rest =>
      obtain rfl : rest = [] := by simpa using h
      exact ite_self [row]

end Reply

/-- A caller who leaves at the first row that is no record misses no record. -/
theorem Mapping.wrapAll_rowsUntil {m : Mapping} {e : Entity} {enough : Nat → Row → Bool}
    (hEnough : ∀ n row record, m.wrap e row = .ok record → enough n row = false) (seen : Nat)
    (rows : List Row) : m.wrapAll e (Reply.rowsUntil enough seen rows) = m.wrapAll e rows := by
  induction rows generalizing seen with
  | nil => rfl
  | cons row rows ih =>
      cases hWrap : m.wrap e row with
      | error failure =>
          rw [Reply.rowsUntil]
          split <;> simp only [wrapAll, hWrap]
      | ok record =>
          rw [Reply.rowsUntil, hEnough _ row record hWrap, if_neg Bool.false_ne_true]
          simp only [wrapAll, hWrap, ih]

/-- The records of all rows, unless one of the rows is none. -/
def Mapping.wrapRows (m : Mapping) (e : Entity) (rows : List Row) : Result (List (Record e)) :=
  (m.wrapAll e rows).2.elim (.ok (m.wrapAll e rows).1) .error

/-- Records are fetched as rows and then wrapped. -/
theorem Repository.fetch_eq {e : Entity} (r : Repository e) (q : Query) :
    r.fetch q = q.fetch >>= fun rows => Exchange.ofResult (r.mapping.wrapRows e rows) := by
  rw [fetch]
  congr
  funext rows
  rw [Mapping.wrapRows]
  rcases r.mapping.wrapAll e rows with ⟨_, _ | _⟩ <;> rfl

namespace BlockingExecutor

variable {α : Type} {B : BlockingExecutor} {streamed : Bool} {sent : List Request} {e : Entity}
  {issues : Site × Request → Prop}

/-- A caller who takes records one by one gets those of the rows that there are. -/
theorem runOver_collectRecords (r : Repository e) (q : Query) :
    (r.collect q).runOver (B.wire true sent) =
      (q.collect >>= fun rows => Exchange.ofResult (r.mapping.wrapRows e rows)).runOver
        (B.wire true sent) := by
  have hTake : (none : Option Nat) ≠ some 0 := (Option.some_ne_none 0).symm
  rw [Exchange.runOver_bind, Repository.collect, Exchange.runOver_mk, Repository.stream]
  cases hCompile : q.compile with
  | error failure =>
      rw [stream_of_error hTake hCompile, collect_of_error hCompile]
      rfl
  | ok request =>
      rw [stream_wire hTake hCompile, runOver_collect hCompile]
      cases B.fetch (sent ++ [request]) with
      | error failure => rfl
      | ok rows =>
          dsimp only
          -- The caller leaves at a row that is no record, and no record comes behind such a row.
          rw [if_pos rfl, Mapping.wrapAll_rowsUntil]
          · change (((r.mapping.wrapAll e rows).2.orElse fun _ => none).elim _ _, _) =
              ((r.mapping.wrapAll e rows).2.elim _ _, _)
            cases (r.mapping.wrapAll e rows).2 <;> rfl
          · intro n row record hWrap
            rw [hWrap]
            rfl

/-- All records of the whole reply, and all records one by one. -/
theorem alike_records (r : Repository e) (q : Query) :
    B.Alike sent (Statement.select q).Issues Fails (r.fetch q).runOver (r.collect q).runOver := by
  refine Alike.congr ?_ (congrArg (Exchange.runOver · _) (r.fetch_eq q)) (runOver_collectRecords r q)
  exact (alike_rows q).bind fun rows _ => alike_ofResult (r.mapping.wrapRows e rows)

/-- The first record of a reply that holds at most one row. -/
theorem runOver_fetchOne {r : Repository e} {q : Query}
    (hLimited : ∀ request, q.first.compile = .ok request →
      ∀ rows, B.fetch (sent ++ [request]) = .ok rows → rows.length ≤ 1) :
    (r.fetchOne q).runOver (B.wire true sent) =
      (r.collect q.first >>= fun records => Exchange.ofResult (.ok records.head?)).runOver
        (B.wire true sent) := by
  have hTake : some 1 ≠ some 0 := by decide
  rw [Exchange.runOver_bind, runOver_collectRecords, Exchange.runOver_bind, Repository.fetchOne,
    Exchange.runOver_mk, Repository.stream]
  cases hCompile : q.first.compile with
  | error failure =>
      rw [stream_of_error hTake hCompile, collect_of_error hCompile]
      rfl
  | ok request =>
      rw [stream_wire hTake hCompile, runOver_collect hCompile]
      cases hRows : B.fetch (sent ++ [request]) with
      | error failure => rfl
      | ok rows =>
          have hLength := hLimited request hCompile rows hRows
          have hTaken : Except.mapError (Wire.executionFailure (q.first.site .query) request)
            (.ok rows) = .ok rows := rfl
          rw [hTaken]
          dsimp only
          rw [if_pos rfl, Reply.rowsUntil_of_length_le hLength]
          cases rows with
          | nil => rfl
          | cons row rest =>
              obtain rfl : rest = [] := by simpa using hLength
              simp only [Mapping.wrapRows, Mapping.wrapAll]
              cases r.mapping.wrap e row <;> rfl

/-- Both forms ask for one row, the one by the limit of the query and the other as its first. -/
theorem alike_findById (r : Repository e) (id : Value)
    (hLimited : ∀ c request, r.idCondition id = .ok c →
      (r.query.narrow c).first.compile = .ok request →
      ∀ rows, B.fetch (sent ++ [request]) = .ok rows → rows.length ≤ 1) :
    B.Alike sent
      (fun entry => ∃ c, r.idCondition id = .ok c ∧
        (Statement.select (r.query.narrow c).first).Issues entry)
      Fails (r.findByIdWhole id).runOver (r.findById id).runOver := by
  refine alike_compiled fun c hId => ?_
  -- The queries are not the same, but what they compile to is.
  have hOne := runOver_fetchOne (r := r) fun request => hLimited c request hId
  refine (Alike.congr ?_ rfl hOne).mono fun entry hEntry => ⟨c, hId, hEntry⟩
  exact (alike_records r (r.query.narrow c).first).bind fun records _ =>
    alike_ofResult (.ok records.head?)

/-! ### Batches and sessions -/

/-- Both forms of a batch come to the same failure behind the same chunks. -/
theorem alike_runBatch {site : Site} {total : Nat} {completed : UInt64}
    {listed : List (Nat × Request)} (h : ∀ entry ∈ listed, issues (site, entry.2)) :
    B.Alike sent issues (fun a failure => ∃ b, a = .error (failure.under (.batch b)))
      (Repository.runBatch site total completed listed).runOver
      (Repository.runBatch site total completed listed).runOver := by
  induction listed generalizing completed sent with
  | nil => exact alike_done (fun _ => rfl) (fun _ => rfl)
  | cons entry later ih =>
      obtain ⟨index, request⟩ := entry
      rw [List.forall_mem_cons] at h
      have hNext := Repository.runOver_runBatch_cons site total completed index request later
      refine Alike.andThen _ _ hNext hNext (alike_execute h.1) ?_ ?_
      · rintro _ failure rfl
        exact ⟨.error (failure.under (.batch ⟨completed, index, total⟩)), ⟨_, rfl⟩, rfl, rfl⟩
      · intro outcome sent'
        cases outcome with
        | error failure => exact alike_done (fun _ => rfl) (fun _ => rfl)
        | ok a => exact ih h.2

/-- A batch sends the insertions of its chunks. -/
theorem alike_insertBatch (r : Repository e) (records : List (Record e)) (size : Option Nat) :
    B.Alike sent
      (fun entry => ∃ chunk ∈ Repository.chunks (size.getD r.chunkSize) records,
        (Statement.insert (r.insertion chunk)).Issues entry)
      (fun a failure => ∃ b, a = .error (failure.under (.batch b)))
      (r.insertBatch records size).runOver (r.insertBatch records size).runOver := by
  rw [Repository.insertBatch]
  split
  next => exact alike_done (fun _ => rfl) (fun _ => rfl)
  next =>
    dsimp only
    split
    next => exact alike_done (fun _ => rfl) (fun _ => rfl)
    next =>
      refine alike_compiled fun compiled hCompiled => alike_runBatch ?_
      intro entry hEntry
      have hRequest : entry.2 ∈ compiled.flatten := by
        rw [← Repository.map_indexed 0]
        exact List.mem_map_of_mem hEntry
      obtain ⟨requests, hRequests, hMem⟩ := List.mem_flatten.mp hRequest
      obtain ⟨chunk, hChunk, hCompile⟩ :=
        exists_mem_of_forall₂ (Repository.forall₂_compileChunks hCompiled).flip hRequests
      exact ⟨chunk, hChunk, rfl, requests, hCompile, hMem⟩

end BlockingExecutor

namespace Session

/-- What a step makes of the result of a statement. -/
def afterRequest (site : Site) (count : Nat) (later : List Request) :
    Result Affected → Wire → (Nat × Option Failure) × Wire
  | .error failure, w => ((count, some failure), w)
  | .ok _, w => runRequests site (count + 1) w later

theorem runRequests_cons (site : Site) (count : Nat) (request : Request) (later : List Request)
    (w : Wire) : runRequests site count w (request :: later) =
      afterRequest site count later ((Exchange.execute site request).runOver w).1
        ((Exchange.execute site request).runOver w).2 := by
  rw [runRequests]
  rcases (Exchange.execute site request).runOver w with ⟨_ | _, _⟩ <;> rfl

/-- What a session makes of a step. -/
def afterStep (s : Session) (db : Database) (p : Progress) (step : Step) (later : List Step) :
    Nat × Option Failure → Wire → Progress × Wire
  | (count, some failure), w => ({ p with count, failure := some failure }, w)
  | (count, none), w =>
    let table := step.change.apply s.target (p.table.getD { name := "" })
    s.runSteps db { table := some table, applied := true, count } w later

theorem runSteps_cons (s : Session) (db : Database) (p : Progress) (step : Step) (later : List Step)
    (w : Wire) : s.runSteps db p w (step :: later) =
      s.afterStep db p step later (runRequests s.site p.count w (s.stepRequests db step)).1
        (runRequests s.site p.count w (s.stepRequests db step)).2 := by
  rw [runSteps]
  rcases runRequests s.site p.count w (s.stepRequests db step) with ⟨⟨_, _ | _⟩, _⟩ <;> rfl

/-- The commit, with all that it leaves behind beside the wire. -/
def commitOver (s : Session) (db : Database) (w : Wire) : (Result Nat × Session × Database) × Wire :=
  let (result, s', db', w') := s.commit db w
  ((result, s', db'), w')

/-- The commit that waits for its statements, with all that it leaves behind beside the wire. -/
def commitWholeOver (s : Session) (db : Database) (w : Wire) :
    (Result Nat × Session × Database) × Wire :=
  let (result, s', db', w') := s.commitWhole db w
  ((result, s', db'), w')

/-- Both forms of a migration take the same steps. -/
theorem commitWholeOver_eq (s : Session) (db : Database) : s.commitWholeOver db = s.commitOver db := by
  funext w
  rw [commitWholeOver, commitWhole_eq, commitOver]

/-- What a commit makes of its steps. -/
def afterSteps (s : Session) (db : Database) : Progress → Wire → (Result Nat × Session × Database) × Wire
  | { failure := some failure, table := some t, applied := true, .. }, w =>
    ((.error failure, s, db.put t), w)
  | { failure := some failure, .. }, w => ((.error failure, s, db), w)
  | { count, .. }, w =>
    ((.ok count, { s with state := .committed }, db.put (s.target.merged (s.known? db))), w)

/-- A migration that is planned runs its steps over the wire. -/
theorem commitOver_eq {s : Session} {db : Database} {steps : List Step} (h : s.plan db = .ok steps)
    (w : Wire) : s.commitOver db w =
      s.afterSteps db (s.runSteps db { table := s.known? db } w steps).1
        (s.runSteps db { table := s.known? db } w steps).2 := by
  simp only [commitOver, commit, h]
  rcases s.runSteps db { table := s.known? db } w steps with
    ⟨⟨_ | table, _ | _, count, _ | failure⟩, w'⟩ <;> rfl

/-- A request of the session, under the table that it brings to its target. -/
def Issues (s : Session) (db : Database) (entry : Site × Request) : Prop :=
  entry.1 = ⟨.ddl, s.target.name, none⟩ ∧ ∃ requests, s.compile db = .ok requests ∧ entry.2 ∈ requests

end Session

namespace BlockingExecutor

variable {B : BlockingExecutor} {sent : List Request} {issues : Site × Request → Prop}

/-- Both forms of a step come to the same count. -/
theorem alike_runRequests {site : Site} {count : Nat} {requests : List Request}
    (h : ∀ request ∈ requests, issues (site, request)) :
    B.Alike sent issues (fun a failure => a.2 = some failure)
      (Session.runRequests site count · requests) (Session.runRequests site count · requests) := by
  induction requests generalizing count sent with
  | nil => exact alike_done (fun _ => rfl) (fun _ => rfl)
  | cons request later ih =>
      rw [List.forall_mem_cons] at h
      have hNext := Session.runRequests_cons site count request later
      refine Alike.andThen _ _ hNext hNext (alike_execute h.1) ?_ ?_
      · rintro _ failure rfl
        exact ⟨(count, some failure), rfl, rfl, rfl⟩
      · intro outcome sent'
        cases outcome with
        | error failure => exact alike_done (fun _ => rfl) (fun _ => rfl)
        | ok _ => exact ih h.2

/-- Both forms of several steps come as far. -/
theorem alike_runSteps {s : Session} {db : Database} {p : Session.Progress} {steps : List Step}
    (h : ∀ request ∈ steps.flatMap (s.stepRequests db), issues (s.site, request)) :
    B.Alike sent issues (fun p failure => p.failure = some failure)
      (s.runSteps db p · steps) (s.runSteps db p · steps) := by
  induction steps generalizing p sent with
  | nil => exact alike_done (fun _ => rfl) (fun _ => rfl)
  | cons step later ih =>
      rw [List.flatMap_cons, List.forall_mem_append] at h
      have hNext := s.runSteps_cons db p step later
      refine Alike.andThen _ _ hNext hNext (alike_runRequests h.1) ?_ ?_
      · rintro ⟨count, _⟩ failure rfl
        exact ⟨{ p with count, failure := some failure }, rfl, rfl, rfl⟩
      · rintro ⟨count, _ | failure⟩ sent'
        · exact ih h.2
        · exact alike_done (fun _ => rfl) (fun _ => rfl)

/-- Both forms of a migration leave the same session and the same database. -/
theorem alike_commit (s : Session) (db : Database) :
    B.Alike sent (s.Issues db) (fun a failure => a.1 = .error failure) (s.commitOver db)
      (s.commitOver db) := by
  cases hPlan : s.plan db with
  | error failure =>
      refine alike_done (a := (.error failure, s, db)) (fun w => ?_) (fun w => ?_) <;>
        rw [Session.commitOver, Session.commit, hPlan]
  | ok steps =>
      have hCompile : s.compile db = .ok (steps.flatMap (s.stepRequests db)) := by
        rw [Session.compile, hPlan]
        rfl
      have hEnd := Session.commitOver_eq hPlan
      refine Alike.andThen _ _ hEnd hEnd (alike_runSteps ?_) ?_ ?_
      · exact fun request hRequest => ⟨rfl, _, hCompile, hRequest⟩
      · rintro ⟨_ | table, _ | _, count, _⟩ failure rfl <;> exact ⟨_, rfl, rfl, rfl⟩
      · rintro ⟨_ | table, _ | _, count, _ | failure⟩ sent' <;>
          exact alike_done (fun _ => rfl) (fun _ => rfl)

end BlockingExecutor

/-! ### Operations in two forms -/

/-- An operation in two forms, by the type of its outcome. An entity query is counted as the query
beneath it. -/
inductive Paired : Type → Type
  | insert (i : Insert) : Paired (Result Affected)
  | update (u : Update) : Paired (Result Affected)
  | delete (x : Delete) : Paired (Result Affected)
  | rows (q : Query) : Paired (Result (List Row))
  | count (q : Query) : Paired (Result Nat)
  | records {e : Entity} (r : Repository e) (q : Query) : Paired (Result (List (Record e)))
  | insertRecord {e : Entity} (r : Repository e) (record : Record e) : Paired (Result UInt64)
  | insertBatch {e : Entity} (r : Repository e) (records : List (Record e)) (size : Option Nat) :
    Paired (Result UInt64)
  | findById {e : Entity} (r : Repository e) (id : Value) : Paired (Result (Option (Record e)))
  | commit (s : Session) (db : Database) : Paired (Result Nat × Session × Database)

namespace Paired

variable {α : Type} {B : BlockingExecutor} {sent : List Request}

/-- The form that waits for whole replies. -/
def blocking : Paired α → Wire → α × Wire
  | insert i => i.executeWhole.runOver
  | update u => u.executeWhole.runOver
  | delete x => x.executeWhole.runOver
  | rows q => q.fetch.runOver
  | count q => q.countWhole.runOver
  | records r q => (r.fetch q).runOver
  | insertRecord r record => (r.insertWhole record).runOver
  | insertBatch r batch size => (r.insertBatchWhole batch size).runOver
  | findById r id => (r.findByIdWhole id).runOver
  | commit s db => s.commitWholeOver db

/-- The form that takes replies item by item. -/
def async : Paired α → Wire → α × Wire
  | insert i => i.execute.runOver
  | update u => u.execute.runOver
  | delete x => x.execute.runOver
  | rows q => q.collect.runOver
  | count q => q.count.runOver
  | records r q => (r.collect q).runOver
  | insertRecord r record => (r.insert record).runOver
  | insertBatch r batch size => (r.insertBatch batch size).runOver
  | findById r id => (r.findById id).runOver
  | commit s db => s.commitOver db

/-- The requests of an operation, each under the operation and the table of its statement. -/
def Issues : Paired α → Site × Request → Prop
  | insert i => (Statement.insert i).Issues
  | update u => (Statement.update u).Issues
  | delete x => (Statement.delete x).Issues
  | rows q => (Statement.select q).Issues
  | count q => (Statement.count q).Issues
  | records _ q => (Statement.select q).Issues
  | insertRecord r record => (Statement.insert (r.insertion [record])).Issues
  | insertBatch r batch size => fun entry =>
    ∃ chunk ∈ Repository.chunks (size.getD r.chunkSize) batch,
      (Statement.insert (r.insertion chunk)).Issues entry
  | findById r id => fun entry =>
    ∃ c, r.idCondition id = .ok c ∧ (Statement.select (r.query.narrow c).first).Issues entry
  | commit s db => s.Issues db

/-- The outcome is a failure; a batch reports it under how far it came. -/
def Told : {α : Type} → Paired α → α → Failure → Prop
  | _, insert _, a, failure => a = .error failure
  | _, update _, a, failure => a = .error failure
  | _, delete _, a, failure => a = .error failure
  | _, rows _, a, failure => a = .error failure
  | _, count _, a, failure => a = .error failure
  | _, records .., a, failure => a = .error failure
  | _, insertRecord .., a, failure => a = .error failure
  | _, insertBatch .., a, failure => ∃ b, a = .error (failure.under (.batch b))
  | _, findById .., a, failure => a = .error failure
  | _, commit .., a, failure => a.1 = .error failure

/-- A query for the record with a key is answered by at most one row. -/
def Limited (B : BlockingExecutor) (sent : List Request) : Paired α → Prop
  | findById r id => ∀ c request, r.idCondition id = .ok c →
    (r.query.narrow c).first.compile = .ok request →
    ∀ rows, B.fetch (sent ++ [request]) = .ok rows → rows.length ≤ 1
  | _ => True

/-- The two forms of each operation agree and send the same. -/
theorem alike (p : Paired α) (h : p.Limited B sent) :
    B.Alike sent p.Issues p.Told p.blocking p.async := by
  cases p with
  | insert i =>
      rw [blocking, i.executeWhole_eq]
      exact BlockingExecutor.alike_insert i
  | update u =>
      rw [blocking, u.executeWhole_eq]
      exact BlockingExecutor.alike_update u
  | delete x =>
      rw [blocking, x.executeWhole_eq]
      exact BlockingExecutor.alike_delete x
  | rows q => exact BlockingExecutor.alike_rows q
  | count q => exact BlockingExecutor.alike_countWhole q
  | records r q => exact BlockingExecutor.alike_records r q
  | insertRecord r record =>
      rw [blocking, r.insertWhole_eq]
      exact (BlockingExecutor.alike_insert (r.insertion [record])).bind fun affected _ =>
        BlockingExecutor.alike_ofResult (.ok affected.rows)
  | insertBatch r batch size =>
      rw [blocking, r.insertBatchWhole_eq]
      exact BlockingExecutor.alike_insertBatch r batch size
  | findById r id => exact BlockingExecutor.alike_findById r id h
  | commit s db =>
      rw [blocking, s.commitWholeOver_eq]
      exact BlockingExecutor.alike_commit s db

/-- The blocking form on an executor and the async form on the stream of the executor send the same
requests in order, and end with the same outcome: value or failure, and for a commit the session and
the database as well. An executor that waits for that stream is the executor itself. -/
theorem forms_agree (p : Paired α) (B : BlockingExecutor) (sent : List Request)
    (hLimited : p.Limited B sent) :
    (∃ outcome log, p.blocking (B.wire false sent) = (outcome, B.wire false (sent ++ log)) ∧
      p.async (B.wire true sent) = (outcome, B.wire true (sent ++ log))) ∧
    ∀ requests, B.streaming.blocking requests = B requests := by
  refine ⟨?_, fun requests => congrFun B.blocking_streaming requests⟩
  obtain ⟨outcome, log, -, -, hBlocking, hAsync⟩ := p.alike hLimited
  exact ⟨outcome, log.map Prod.snd, hBlocking, hAsync⟩

/-- A record that is found by its key. -/
theorem forms_agree_found :
    let e : Entity := ⟨"Product", [⟨"id", .integer .int64⟩, ⟨"name", .option .text⟩]⟩
    let t : Table := { name := "products", columns := [
      (Column.ofTy "ID" (.integer .int64)).asKey,
      { Column.ofTy "label" .text with mappedTo := "NAME" }] }
    let r : Repository e := ⟨t, .generic, (t.mapping e.name e.propertyNames).1, 100⟩
    let p := findById r (.integer .int64 (some ⟨7, by decide⟩))
    let B : BlockingExecutor := fun _ =>
      .ok [.row ⟨["ID", "label"], [.integer .int64 (some ⟨7, by decide⟩), .text (some "ink")]⟩]
    let product : Record e := ⟨(⟨7, by decide⟩, some "ink", ())⟩
    ∃ log, p.blocking (B.wire false []) = (.ok (some product), B.wire false log) ∧
      p.async (B.wire true []) = (.ok (some product), B.wire true log) := by
  intro e t r p B product
  have hLimited : p.Limited B [] := by
    intro c request _ _ rows hRows
    obtain rfl := Except.ok.inj hRows
    exact Nat.le_refl 1
  obtain ⟨⟨outcome, log, hBlocking, hAsync⟩, -⟩ := forms_agree p B [] hLimited
  obtain rfl : .ok (some product) = outcome := congrArg Prod.fst hBlocking
  exact ⟨log, hBlocking, hAsync⟩

end Paired

end SqlMapper
