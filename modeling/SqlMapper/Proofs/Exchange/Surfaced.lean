import SqlMapper.Proofs.Exchange.Forms

/-! Failures of executors. Every operation ends at the first request that fails, and its failure names
that request and its place above what the executor told. -/
namespace SqlMapper

namespace BlockingExecutor

variable {α β : Type} {B : BlockingExecutor} {streamed : Bool} {sent : List Request} {e : Entity}
  {issues issues' : Site × Request → Prop} {told : α → Failure → Prop}

theorem Surfaces.mono {x : Wire → α × Wire} (h : B.Surfaces streamed sent issues told x)
    (hIssues : ∀ entry, issues entry → issues' entry) : B.Surfaces streamed sent issues' told x := by
  obtain ⟨outcome, log, f?, hTraced, hRun⟩ := h
  exact ⟨outcome, log, f?, hTraced.mono hIssues, hRun⟩

/-- A statement that does not compile sends nothing, and one that does surfaces what its requests
meet. -/
theorem surfaces_compiled {a : Result α} {f : α → Exchange β} {told : Result β → Failure → Prop}
    (h : ∀ x, a = .ok x → B.Surfaces streamed sent issues told (f x).runOver) :
    B.Surfaces streamed sent issues told (Exchange.ofResult a >>= f).runOver := by
  cases a with
  | error failure => exact surfaces_done fun _ => rfl
  | ok x => exact h x rfl

/-! ### Records -/

/-- The records of some rows, up to the first that is none, and what ended them. -/
def wrapped (m : Mapping) (e : Entity) (outcome : List Row × Option Failure) :
    List (Record e) × Option Failure :=
  ((m.wrapAll e outcome.1).1, (m.wrapAll e outcome.1).2.orElse fun _ => outcome.2)

/-- Taking records surfaces the failure of the request. -/
theorem surfaces_records (r : Repository e) (q : Query) (take : Option Nat) :
    B.Surfaces streamed sent (Statement.select q).Issues
      (fun outcome failure => outcome = ([], some failure)) (r.stream q take) := by
  refine Surfaces.map (wrapped r.mapping e) (fun w => rfl) ?_ (surfaces_stream q take _)
  rintro _ failure rfl
  rfl

/-- The first record, or what came instead of it. -/
def firstOf (outcome : List (Record e) × Option Failure) : Result (Option (Record e)) :=
  match outcome.1.head? with
  | some record => .ok (some record)
  | none => outcome.2.elim (.ok none) .error

/-- Taking one record surfaces the failure of the request. -/
theorem surfaces_fetchOne (r : Repository e) (q : Query) :
    B.Surfaces streamed sent (Statement.select q.first).Issues Fails (r.fetchOne q).runOver := by
  refine Surfaces.map firstOf (fun w => ?_) ?_ (surfaces_records r q.first (some 1))
  · rw [Repository.fetchOne, Exchange.runOver_mk]
    rcases r.stream q.first (some 1) w with ⟨⟨_ | _, _⟩, _⟩ <;> rfl
  · rintro _ failure rfl
    rfl

/-- Finding a record surfaces the failure of the request. -/
theorem surfaces_findById (r : Repository e) (id : Value) :
    B.Surfaces streamed sent (Paired.findById r id).Issues Fails (r.findById id).runOver :=
  surfaces_compiled fun c hId =>
    (surfaces_fetchOne r (r.query.narrow c)).mono fun _ hEntry => ⟨c, hId, hEntry⟩

/-- So does finding it out of the whole reply. -/
theorem surfaces_findByIdWhole (r : Repository e) (id : Value) :
    B.Surfaces false sent (Paired.findById r id).Issues Fails (r.findByIdWhole id).runOver := by
  refine surfaces_compiled fun c hId => ?_
  have hFirst : B.Alike sent (Statement.select (r.query.narrow c).first).Issues Fails _ _ :=
    (alike_records r (r.query.narrow c).first).bind fun records _ =>
      alike_ofResult (.ok records.head?)
  exact hFirst.direct.mono fun _ hEntry => ⟨c, hId, hEntry⟩

end BlockingExecutor

namespace Paired

variable {α : Type} {B : BlockingExecutor} {sent : List Request}

/-- The blocking form of each operation surfaces failures. -/
theorem surfaces_blocking (p : Paired α) : B.Surfaces false sent p.Issues p.Told p.blocking := by
  cases p with
  | findById r id => exact BlockingExecutor.surfaces_findByIdWhole r id
  | _ => exact (alike _ (by exact trivial)).direct

/-- The streaming form of each operation surfaces failures. -/
theorem surfaces_async (p : Paired α) : B.Surfaces true sent p.Issues p.Told p.async := by
  cases p with
  | findById r id => exact BlockingExecutor.surfaces_findById r id
  | _ => exact (alike _ (by exact trivial)).onStream

end Paired

/-! ### Saving and deleting -/

/-- What an upsert compiles to is what its insertion compiles to. -/
theorem Insert.compile_of_compileUpsert {i : Insert} {requests : List Request}
    (h : i.compileUpsert = .ok (some requests)) : i.compile = .ok requests := by
  rw [compile, h]
  rfl

namespace Repository

variable {e : Entity} (r : Repository e) (record : Record e)

/-- The statements that may save a record: its upsert, or the count of the rows with its key and then
an insertion or an update. -/
inductive Saves : Statement → Prop
  | upsert : Saves (.insert (r.upsertion record))
  | count {c : Condition} (hKey : r.keyCondition record = .ok c) : Saves (.count (r.query.narrow c))
  | insert : Saves (.insert (r.insertion [record]))
  | update {c : Condition} {u : Update} (hKey : r.keyCondition record = .ok c)
      (h : r.updateOf? record c = some u) : Saves (.update u)

/-- A request of a statement that may save a record. -/
def SaveIssues (entry : Site × Request) : Prop := ∃ x, r.Saves record x ∧ x.Issues entry

end Repository

namespace BlockingExecutor

variable {B : BlockingExecutor} {sent : List Request} {e : Entity}

/-- Saving surfaces the failure of any of its requests. -/
theorem alike_save (r : Repository e) (record : Record e) :
    B.Alike sent (r.SaveIssues record) Fails (r.save record).runOver (r.save record).runOver := by
  refine alike_compiled fun requests? hUpsert => ?_
  cases requests? with
  | some requests =>
      refine (alike_executeAll fun request hRequest => ?_).bind fun affected _ =>
        alike_ofResult (.ok affected.rows)
      exact ⟨_, .upsert, rfl, requests, Insert.compile_of_compileUpsert hUpsert, hRequest⟩
  | none =>
      refine alike_compiled fun c hKey => ?_
      refine ((alike_count (r.query.narrow c)).mono fun _ h => ⟨_, .count hKey, h⟩).bind ?_
      intro found sent'
      split
      next =>
        refine ((alike_insert (r.insertion [record])).mono fun _ h => ⟨_, .insert, h⟩).bind ?_
        exact fun affected _ => alike_ofResult (.ok affected.rows)
      next =>
        cases hUpdate : r.updateOf? record c with
        | none => exact alike_ofResult (.ok 0)
        | some u =>
            refine ((alike_update u).mono fun _ h => ⟨_, .update hKey hUpdate, h⟩).bind ?_
            exact fun affected _ => alike_ofResult (.ok affected.rows)

/-- Deleting a record surfaces the failure of its request. -/
theorem alike_deleteById (r : Repository e) (id : Value) :
    B.Alike sent
      (fun entry => ∃ c, r.idCondition id = .ok c ∧
        (Statement.delete (r.deletion.narrow c)).Issues entry)
      Fails (r.deleteById id).runOver (r.deleteById id).runOver := by
  refine alike_compiled fun c hId => ?_
  refine ((alike_delete (r.deletion.narrow c)).mono fun _ h => ⟨c, hId, h⟩).bind ?_
  exact fun affected _ => alike_ofResult (.ok affected.rows)

end BlockingExecutor

/-! ### All operations -/

/-- An operation on an executor: on the executor itself, or on its stream. Some operations there are on
streams alone. -/
inductive Call : Bool → Type → Type 1
  | blocking {α : Type} (p : Paired α) : Call false α
  | async {α : Type} (p : Paired α) : Call true α
  | stream (q : Query) (take : Option Nat) (stop : Row → Bool) : Call true (List Row × Option Failure)
  | streamRecords {e : Entity} (r : Repository e) (q : Query) (take : Option Nat) :
    Call true (List (Record e) × Option Failure)
  | fetchOne {e : Entity} (r : Repository e) (q : Query) : Call true (Result (Option (Record e)))
  | save {e : Entity} (r : Repository e) (record : Record e) : Call true (Result UInt64)
  | deleteById {e : Entity} (r : Repository e) (id : Value) : Call true (Result UInt64)

namespace Call

variable {α : Type} {streamed : Bool}

def run : {streamed : Bool} → {α : Type} → Call streamed α → Wire → α × Wire
  | _, _, blocking p => p.blocking
  | _, _, async p => p.async
  | _, _, stream q take stop => q.stream take stop
  | _, _, streamRecords r q take => r.stream q take
  | _, _, fetchOne r q => (r.fetchOne q).runOver
  | _, _, save r record => (r.save record).runOver
  | _, _, deleteById r id => (r.deleteById id).runOver

/-- The requests of an operation, each under the operation and the table of its statement. -/
def Issues : {streamed : Bool} → {α : Type} → Call streamed α → Site × Request → Prop
  | _, _, blocking p => p.Issues
  | _, _, async p => p.Issues
  | _, _, stream q _ _ => (Statement.select q).Issues
  | _, _, streamRecords _ q _ => (Statement.select q).Issues
  | _, _, fetchOne _ q => (Statement.select q.first).Issues
  | _, _, save r record => r.SaveIssues record
  | _, _, deleteById r id => fun entry =>
    ∃ c, r.idCondition id = .ok c ∧ (Statement.delete (r.deletion.narrow c)).Issues entry

/-- The outcome is a failure. It stands alone, except that a batch reports it under how far it came. -/
def Told : {streamed : Bool} → {α : Type} → Call streamed α → α → Failure → Prop
  | _, _, blocking p => p.Told
  | _, _, async p => p.Told
  | _, _, stream .. => fun a failure => a = ([], some failure)
  | _, _, streamRecords .. => fun a failure => a = ([], some failure)
  | _, _, fetchOne .. => fun a failure => a = .error failure
  | _, _, save .. => fun a failure => a = .error failure
  | _, _, deleteById .. => fun a failure => a = .error failure

/-- Every operation surfaces the failure of any of its requests. -/
theorem surfaces (c : Call streamed α) (B : BlockingExecutor) (sent : List Request) :
    B.Surfaces streamed sent c.Issues c.Told c.run := by
  cases c with
  | blocking p => exact p.surfaces_blocking
  | async p => exact p.surfaces_async
  | stream q take stop => exact BlockingExecutor.surfaces_stream q take stop
  | streamRecords r q take => exact BlockingExecutor.surfaces_records r q take
  | fetchOne r q => exact BlockingExecutor.surfaces_fetchOne r q
  | save r record => exact (BlockingExecutor.alike_save r record).onStream
  | deleteById r id => exact (BlockingExecutor.alike_deleteById r id).onStream

/-- An operation whose request fails sends nothing more, and its outcome is the failure of the
executor, unchanged, under that request and the operation and table of the statement that it is of. -/
theorem failure_surfaces (c : Call streamed α) (B : BlockingExecutor) (sent : List Request)
    {earlier later : List Request} {request : Request} {top : Layer} {beneath : List Layer}
    (hSent : (c.run (B.wire streamed sent)).2.sent = sent ++ (earlier ++ request :: later))
    (hFailed : B (sent ++ earlier ++ [request]) = .error (.reported top beneath)) :
    later = [] ∧ ∃ site, c.Issues (site, request) ∧
      c.Told (c.run (B.wire streamed sent)).1
        (.reported (.execution site request) (top :: beneath)) := by
  obtain ⟨outcome, log, f?, hTraced, hRun⟩ := c.surfaces B sent
  rw [hRun] at hSent ⊢
  have hLog : log.map Prod.snd = earlier ++ request :: later := List.append_cancel_left hSent
  obtain ⟨front, back, rfl, rfl, hBack⟩ := List.map_eq_append_iff.mp hLog
  obtain ⟨⟨site, _⟩, rest, rfl, rfl, rfl⟩ := List.map_eq_cons_iff.mp hBack
  obtain ⟨rfl, rfl⟩ := hTraced.answers.last_of_error hFailed
  refine ⟨rfl, site, hTraced.issued _ ?_, hTraced.told _ rfl⟩
  exact List.mem_append_right front (List.mem_singleton_self _)

/-- A record that is saved without an upsert: its count is answered, and its insertion fails. -/
theorem failure_surfaces_saved :
    let e : Entity := ⟨"Product", [⟨"id", .integer .int64⟩, ⟨"name", .option .text⟩]⟩
    let t : Table := { name := "products", columns := [
      (Column.ofTy "ID" (.integer .int64)).asKey,
      { Column.ofTy "label" .text with mappedTo := "NAME" }] }
    let r : Repository e :=
      ⟨t, { Dialect.generic with upsert := .none }, (t.mapping e.name e.propertyNames).1, 100⟩
    let c := save r ⟨(⟨7, by decide⟩, some "ink", ())⟩
    let B : BlockingExecutor
      | [_] => .ok [.row ⟨["total"], [.integer .int64 (some ⟨0, by decide⟩)]⟩]
      | _ => .error (.reported (.fault (.reply "insert")) [.fault (.reply "disk full")])
    ∃ counting insertion site, (c.run (B.wire true [])).2.sent = [counting, insertion] ∧
      c.Issues (site, insertion) ∧
      (c.run (B.wire true [])).1 = .error (.reported (.execution site insertion)
        [.fault (.reply "insert"), .fault (.reply "disk full")]) := by
  intro e t r c B
  obtain ⟨counting, insertion, hSent⟩ : ∃ counting insertion,
    (c.run (B.wire true [])).2.sent = [] ++ ([counting] ++ insertion :: []) := ⟨_, _, rfl⟩
  obtain ⟨-, site, hIssues, hTold⟩ := failure_surfaces c B [] hSent rfl
  exact ⟨counting, insertion, site, hSent, hIssues, hTold⟩

end Call

end SqlMapper
