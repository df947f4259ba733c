import SqlMapper.Proofs.Catalog.Slot
import SqlMapper.Proofs.Result

/-! What a commit does. One that succeeds has run every statement of the plan and registers the
merged table. One that a statement ends has run all statements in front of it and registers what the
steps that ended before made of the known table, if there were any. -/
namespace SqlMapper

namespace Wire

/-- Statements that were sent one after another and that all ran. -/
inductive Ran (site : Site) : Wire → List Request → Wire → Prop where
  | nil (w : Wire) : Ran site w [] w
  | cons {w v u : Wire} {r : Request} {rs : List Request} {a : Affected}
      (first : (Exchange.execute site r).runOver w = (.ok a, v)) (later : Ran site v rs u) :
      Ran site w (r :: rs) u

/-- Statements ran, and the one after them failed. -/
def Stopped (site : Site) (w : Wire) (ran : List Request) (failed : Request) (e : Failure)
    (u : Wire) : Prop :=
  ∃ v, Ran site w ran v ∧ (Exchange.execute site failed).runOver v = (.error e, u)

variable {site : Site} {w v u : Wire} {rs ts : List Request}

/-- Requests that ran after requests that ran make one run. -/
theorem Ran.append (left : Ran site w rs v) (right : Ran site v ts u) : Ran site w (rs ++ ts) u := by
  induction left with
  | nil => exact right
  | cons first _ ih => exact .cons first (ih right)

/-- A failure behind requests that ran stops the longer run. -/
theorem Ran.stopped {r : Request} {e : Failure} (left : Ran site w rs v)
    (right : Stopped site v ts r e u) : Stopped site w (rs ++ ts) r e u := by
  obtain ⟨x, hRan, hFailed⟩ := right
  exact ⟨x, left.append hRan, hFailed⟩

/-- The record of the wire grows by each statement that is sent, whether it runs or not. -/
theorem sent_execute (site : Site) (r : Request) (w : Wire) :
    ((Exchange.execute site r).runOver w).2.sent = w.sent ++ [r] := by
  simp only [Exchange.runOver, Exchange.execute, ExceptT.run_mk, StateT.run]
  cases (w.ask (fun _ _ => false) r).1.failure <;> rfl

/-- The record of the wire has the statements that ran. -/
theorem Ran.sent (h : Ran site w rs u) : u.sent = w.sent ++ rs := by
  induction h with
  | nil w => simp
  | @cons w v u r rs a first later ih =>
      have hFirst := sent_execute site r w
      rw [first] at hFirst
      rw [ih, hFirst, List.append_assoc, List.singleton_append]

end Wire

namespace Plan

def tableAfter (target : Table) (known : Option Table) (steps : List Step) : Option Table :=
  steps.foldl (fun k step => some (step.change.apply target (k.getD { name := "" }))) known

end Plan

namespace Session

open Wire (Ran Stopped)

variable {s : Session} {db : Database}

/-- No failure is reported exactly of a run to the end, and the count is its length. -/
theorem runRequests_eq_none {site : Site} {n m : Nat} {w u : Wire} {rs : List Request}
    (h : runRequests site n w rs = ((m, none), u)) : Ran site w rs u ∧ m = n + rs.length := by
  induction rs generalizing n w with
  | nil =>
      obtain ⟨rfl, rfl⟩ : n = m ∧ w = u := by simpa [runRequests] using h
      exact ⟨.nil w, rfl⟩
  | cons r rs ih =>
      rw [runRequests] at h
      split at h
      next => simp at h
      next a v hFirst =>
        obtain ⟨hRan, rfl⟩ := ih h
        exact ⟨.cons hFirst hRan, by rw [List.length_cons]; omega⟩

/-- A reported failure is that of one request, and those before it ran. -/
theorem runRequests_eq_some {site : Site} {n m : Nat} {w u : Wire} {rs : List Request} {e : Failure}
    (h : runRequests site n w rs = ((m, some e), u)) :
    ∃ ran r later, rs = ran ++ r :: later ∧ Stopped site w ran r e u := by
  induction rs generalizing n w with
  | nil => simp [runRequests] at h
  | cons r rs ih =>
      rw [runRequests] at h
      split at h
      next e' v hFirst =>
        obtain ⟨⟨-, rfl⟩, rfl⟩ : (n = m ∧ e' = e) ∧ v = u := by simpa using h
        exact ⟨[], r, rs, rfl, w, .nil w, hFirst⟩
      next a v hFirst =>
        obtain ⟨ran, r', later, rfl, hStopped⟩ := ih h
        exact ⟨r :: ran, r', later, rfl, (Ran.cons hFirst (.nil v)).stopped hStopped⟩

/-- What steps came to: each of them ran, or all in front of the one with a statement that failed. -/
inductive Came (s : Session) (db : Database) (p : Progress) (w : Wire) :
    List Step → Progress → Wire → Prop where
  | finished (steps : List Step) {u : Wire}
      (ran : Ran s.site w (steps.flatMap (s.stepRequests db)) u) :
      Came s db p w steps
        { table := Plan.tableAfter s.target p.table steps
          applied := p.applied || !steps.isEmpty
          count := p.count + (steps.flatMap (s.stepRequests db)).length } u
  | stopped (done rest : List Step) (count : Nat) {step : Step} {ran later : List Request}
      {r : Request} {e : Failure} {u : Wire}
      (within : s.stepRequests db step = ran ++ r :: later)
      (stopped : Stopped s.site w (done.flatMap (s.stepRequests db) ++ ran) r e u) :
      Came s db p w (done ++ step :: rest)
        { table := Plan.tableAfter s.target p.table done
          applied := p.applied || !done.isEmpty
          count
          failure := some e } u

/-- A step that ran stands in front of what comes of the others. -/
theorem Came.after {p q : Progress} {w v u : Wire} {step : Step} {steps : List Step}
    (first : Ran s.site w (s.stepRequests db step) v)
    (later : Came s db
      { table := some (step.change.apply s.target (p.table.getD { name := "" }))
        applied := true
        count := p.count + (s.stepRequests db step).length } v steps q u) :
    Came s db p w (step :: steps) q u := by
  cases later with
  | finished _ ran =>
      have h := Came.finished (p := p) (step :: steps) (first.append ran)
      simpa [Plan.tableAfter, Nat.add_assoc] using h
  | @stopped done rest count step' ran later r e u within stopped =>
      have hStopped : Stopped s.site w ((step :: done).flatMap (s.stepRequests db) ++ ran) r e u := by
        simpa using first.stopped stopped
      have h := Came.stopped (p := p) (step :: done) rest count within hStopped
      simpa [Plan.tableAfter] using h

/-- Running steps from a fresh start says how far they came. -/
theorem came_runSteps {p : Progress} (hNone : p.failure = none) (w : Wire) (steps : List Step) :
    Came s db p w steps (runSteps s db p w steps).1 (runSteps s db p w steps).2 := by
  induction steps generalizing p w with
  | nil =>
      have h := @Came.finished s db p w [] w (.nil w)
      obtain ⟨table, applied, count, failure⟩ := p
      obtain rfl : failure = none := hNone
      simpa [runSteps, Plan.tableAfter] using h
  | cons step steps ih =>
      rw [runSteps]
      split
      next count e u hRun =>
        obtain ⟨ran, r, later, hWithin, hStopped⟩ := runRequests_eq_some hRun
        have h := Came.stopped (p := p) [] steps count hWithin
          (by simpa using hStopped)
        simpa [Plan.tableAfter] using h
      next count v hRun =>
        obtain ⟨hRan, rfl⟩ := runRequests_eq_none hRun
        exact .after hRan (ih rfl v)

/-- The database after a commit that failed behind some steps. -/
def kept (s : Session) (db : Database) (done : List Step) : Database :=
  if done.isEmpty then db else (Plan.tableAfter s.target (s.known? db) done).elim db db.put

/-- What is kept is the database as it was, or with the table the finished steps leave. -/
theorem kept_cases (s : Session) (db : Database) (done : List Step) :
    s.kept db done = db ∨
      ∃ t, Plan.tableAfter s.target (s.known? db) done = some t ∧ s.kept db done = db.put t := by
  rw [kept]
  split
  next => exact .inl rfl
  next =>
    cases hTable : Plan.tableAfter s.target (s.known? db) done with
    | none => exact .inl rfl
    | some t => exact .inr ⟨t, rfl, rfl⟩

/-- A step that ran leaves a table to register. -/
theorem tableAfter_ne_none (target : Table) (known : Option Table) {steps : List Step}
    (h : steps ≠ []) : ∃ t, Plan.tableAfter target known steps = some t := by
  induction steps generalizing known with
  | nil => exact absurd rfl h
  | cons step steps ih =>
      cases steps with
      | nil => exact ⟨_, rfl⟩
      | cons next steps => exact ih _ (List.cons_ne_nil next steps)

/-- All that a commit can come to. -/
theorem commit_cases (s : Session) (db : Database) (w : Wire) :
    (∃ e, s.plan db = .error e ∧ s.commit db w = (.error e, s, db, w)) ∨
    (∃ steps u, s.plan db = .ok steps ∧ Ran s.site w (steps.flatMap (s.stepRequests db)) u ∧
      s.commit db w = (.ok (steps.flatMap (s.stepRequests db)).length,
        { s with state := .committed }, db.put (s.target.merged (s.known? db)), u)) ∨
    ∃ done step rest ran r later e u, s.plan db = .ok (done ++ step :: rest) ∧
      s.stepRequests db step = ran ++ r :: later ∧
      Stopped s.site w (done.flatMap (s.stepRequests db) ++ ran) r e u ∧
      s.commit db w = (.error e, s, s.kept db done, u) := by
  cases hPlan : s.plan db with
  | error e => exact .inl ⟨e, rfl, by rw [commit, hPlan]⟩
  | ok steps =>
      right
      have hCame := @came_runSteps s db { table := s.known? db } rfl w steps
      rw [commit, hPlan]
      generalize hRun : runSteps s db { table := s.known? db } w steps = outcome at hCame
      obtain ⟨q, u⟩ := outcome
      dsimp only at hCame ⊢
      rw [hRun]
      cases hCame with
      | finished _ ran => exact .inl ⟨steps, u, rfl, ran, by simp⟩
      | @stopped done rest count step ran later r e u within stopped =>
          refine .inr ⟨done, step, rest, ran, r, later, e, u, rfl, within, stopped, ?_⟩
          cases hDone : done with
          | nil => cases hKnown : s.known? db <;> simp [kept, Plan.tableAfter]
          | cons first done =>
              have hSome := tableAfter_ne_none s.target (s.known? db)
                (List.cons_ne_nil first done)
              obtain ⟨t, hTable⟩ := hSome
              simp [kept, hTable]

/-- A commit that succeeds has run every statement of its plan, and counts them. -/
theorem commit_eq_ok {n : Nat} {s' : Session} {db' : Database} {w u : Wire}
    (h : s.commit db w = (.ok n, s', db', u)) :
    ∃ steps, s.plan db = .ok steps ∧ Ran s.site w (steps.flatMap (s.stepRequests db)) u ∧
      n = (steps.flatMap (s.stepRequests db)).length ∧ s' = { s with state := .committed } ∧
      db' = db.put (s.target.merged (s.known? db)) := by
  rcases commit_cases s db w with ⟨e, -, hCommit⟩ | ⟨steps, v, hPlan, hRan, hCommit⟩ |
    ⟨done, step, rest, ran, r, later, e, v, -, -, -, hCommit⟩
  · simp [h] at hCommit
  · rw [h] at hCommit
    simp only [Prod.mk.injEq, Except.ok.injEq] at hCommit
    obtain ⟨hCount, hSession, hDatabase, rfl⟩ := hCommit
    exact ⟨steps, hPlan, hRan, hCount, hSession, hDatabase⟩
  · simp [h] at hCommit

/-- A commit that fails sent nothing, or stopped at one statement of one step. -/
theorem commit_eq_error {e : Failure} {s' : Session} {db' : Database} {w u : Wire}
    (h : s.commit db w = (.error e, s', db', u)) :
    s.plan db = .error e ∧ db' = db ∧ u = w ∨
      ∃ done step rest ran r later, s.plan db = .ok (done ++ step :: rest) ∧
        s.stepRequests db step = ran ++ r :: later ∧
        Stopped s.site w (done.flatMap (s.stepRequests db) ++ ran) r e u ∧
        db' = s.kept db done := by
  rcases commit_cases s db w with ⟨e', hPlan, hCommit⟩ | ⟨steps, v, -, -, hCommit⟩ |
    ⟨done, step, rest, ran, r, later, e', v, hPlan, hWithin, hStopped, hCommit⟩
  · rw [h] at hCommit
    obtain ⟨rfl, -, rfl, rfl⟩ : e = e' ∧ s' = s ∧ db' = db ∧ u = w := by simpa using hCommit
    exact .inl ⟨hPlan, rfl, rfl⟩
  · simp [h] at hCommit
  · rw [h] at hCommit
    obtain ⟨rfl, -, rfl, rfl⟩ : e = e' ∧ s' = s ∧ db' = _ ∧ u = v := by simpa using hCommit
    exact .inr ⟨done, step, rest, ran, r, later, hPlan, hWithin, hStopped, rfl⟩

/-- What becomes of the database: nothing, or the merged table is put into it, or after a failure
what the steps that ran have made of the known one. -/
theorem database_of_commit {s' : Session} {db' : Database} {w u : Wire} {result : Result Nat}
    (h : s.commit db w = (result, s', db', u)) :
    db' = db ∨
    (∃ steps n, s.plan db = .ok steps ∧ result = .ok n ∧
      db' = db.put (s.target.merged (s.known? db))) ∨
    ∃ done rest e t, s.plan db = .ok (done ++ rest) ∧ result = .error e ∧
      Plan.tableAfter s.target (s.known? db) done = some t ∧ db' = db.put t := by
  cases hResult : result with
  | ok n =>
      obtain ⟨steps, hPlan, -, -, -, hEq⟩ := commit_eq_ok (hResult ▸ h)
      exact .inr (.inl ⟨steps, n, hPlan, rfl, hEq⟩)
  | error e =>
      rcases commit_eq_error (hResult ▸ h) with ⟨-, hEq, -⟩ |
        ⟨done, step, rest, -, -, -, hPlan, -, -, hEq⟩
      · exact .inl hEq
      · rcases s.kept_cases db done with hKept | ⟨t, hTable, hKept⟩
        · exact .inl (hEq.trans hKept)
        · exact .inr (.inr ⟨done, step :: rest, e, t, hPlan, rfl, hTable, hEq.trans hKept⟩)

end Session

end SqlMapper
