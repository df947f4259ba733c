import SqlMapper.Proofs.Exchange.Trace
import SqlMapper.Proofs.Record.CalendarEnd

/-! Failures that are refusals. The failure of a request and the failure to read a reply are none,
unless the database itself tells one, so that a run that has been compiled is never refused. -/
namespace SqlMapper

open Result (FailsAs)

/-- A contradiction to the declarations, or a statement that is malformed or refused. -/
def Layer.isRefusal : Layer → Bool
  | metadata .. | compile .. => true
  | _ => false

/-- Some layer is a refusal. -/
def Failure.Refuses (f : Failure) : Prop := ∃ layer ∈ f.layers, layer.isRefusal = true

/-- The failures that the database tells have no places of their own. -/
def Wire.Plain (w : Wire) : Prop :=
  ∀ requests f, .failure f ∈ w.answer requests → ∀ layer ∈ f.layers, layer.site? = none

namespace Failure

theorem not_refuses_ended : ¬ ended.Refuses := by simp [Refuses, layers]

/-- A failure of a layer that refuses nothing is no refusal. -/
theorem not_refuses_of {layer : Layer} (h : layer.isRefusal = false) : ¬ (of layer).Refuses := by
  rintro ⟨other, hOther, hRefusal⟩
  obtain rfl := List.mem_singleton.mp hOther
  rw [h] at hRefusal
  cases hRefusal

/-- A layer that refuses nothing makes no refusal of a failure below it. -/
theorem not_refuses_under {f : Failure} {layer : Layer} (h : layer.isRefusal = false)
    (hf : ¬ f.Refuses) : ¬ (f.under layer).Refuses := by
  cases f with
  | ended => exact hf
  | reported top beneath =>
      rintro ⟨other, hOther, hRefusal⟩
      rcases List.mem_cons.mp hOther with rfl | hOther
      · rw [h] at hRefusal
        cases hRefusal
      · exact hf ⟨other, hOther, hRefusal⟩

/-- A failure without a site is no refusal. -/
theorem not_refuses_of_plain {f : Failure} (h : ∀ layer ∈ f.layers, layer.site? = none) :
    ¬ f.Refuses := by
  rintro ⟨layer, hLayer, hRefusal⟩
  have hSite := h layer hLayer
  cases layer <;> cases hRefusal <;> cases hSite

/-- A coercion that fails is no refusal, if it is not reported as one. -/
theorem not_refuses_ofCoercion {report : List Fault → Failure}
    (h : ∀ faults, ¬ (report faults).Refuses) (error : CoercionError) :
    ¬ (ofCoercion report error).Refuses := by
  cases error with
  | calendarEnd => exact not_refuses_ended
  | _ => exact h _

end Failure

/-! ### Cells -/

namespace Mapping

variable {m : Mapping} {e : Entity}

/-- What goes wrong in a cell is no refusal of the statement. -/
theorem wrapCells_fails (record : Record e) (cells : List (String × Value)) :
    FailsAs (¬ ·.Refuses) (m.wrapCells record cells) := by
  refine (m.wrapCells_fails_reported record cells).mono ?_
  rintro f (rfl | ⟨_, -, _, _, -, rfl⟩)
  · exact Failure.not_refuses_ended
  · exact Failure.not_refuses_of rfl

/-- What goes wrong in a row is no refusal of the statement. -/
theorem wrapAll_fails {rows : List Row} {f : Failure} (h : (m.wrapAll e rows).2 = some f) :
    ¬ f.Refuses := by
  induction rows with
  | nil => cases h
  | cons row rows ih =>
      rw [wrapAll] at h
      split at h
      next failure hWrap =>
        obtain rfl := Option.some.inj h
        exact wrapCells_fails (Record.initial e) row.cells _ hWrap
      next => exact ih h

end Mapping

/-- A count that cannot be read is no refusal of the statement. -/
theorem Query.total_fails (site : Site) (row : Row) : FailsAs (¬ ·.Refuses) (total site row) := by
  unfold total
  split
  · exact .ok _
  next error _ =>
    exact .error (Failure.not_refuses_ofCoercion (fun _ => Failure.not_refuses_of rfl) error)

/-! ### Requests -/

namespace Wire

variable {w : Wire} {enough : Nat → Row → Bool} {request : Request} {f : Failure}

theorem Plain.ask (h : w.Plain) (enough : Nat → Row → Bool) (request : Request) :
    (w.ask enough request).2.Plain := h

/-- A failure of a request over a plain wire is no refusal. -/
theorem Plain.not_refuses (h : w.Plain) (site : Site)
    (hFailed : (w.ask enough request).1.failure = some f) :
    ¬ (executionFailure site request f).Refuses :=
  Failure.not_refuses_under rfl (Failure.not_refuses_of_plain (h _ f (mem_of_deliver hFailed)))

end Wire

/-! ### Runs -/

namespace Wire

variable {α β : Type} {fails : α → Failure → Prop} {fails' : β → Failure → Prop}

/-- Over plain wires the run never ends with a refusal, and it keeps the database. -/
def Innocent (fails : α → Failure → Prop) (x : Wire → α × Wire) : Prop :=
  ∀ w, w.Plain → (x w).2.Plain ∧ ∀ f, fails (x w).1 f → ¬ f.Refuses

/-- Over plain wires the run sends nothing when it ends with a refusal, and it keeps the database. -/
def RefusesUnsent (fails : α → Failure → Prop) (x : Wire → α × Wire) : Prop :=
  ∀ w, w.Plain → (x w).2.Plain ∧ ∀ f, fails (x w).1 f → f.Refuses → (x w).2 = w

/-- An outcome that is looked at in another way. -/
theorem RefusesUnsent.map {x : Wire → α × Wire} {z : Wire → β × Wire} (g : α → β)
    (hz : ∀ w, z w = (g (x w).1, (x w).2)) (h : RefusesUnsent fails x)
    (hFails : ∀ a f, fails' (g a) f → f.Refuses → fails a f) : RefusesUnsent fails' z := by
  intro w hPlain
  obtain ⟨hLater, hUnsent⟩ := h w hPlain
  rw [hz]
  exact ⟨hLater, fun f hEnd hRefuses => hUnsent f (hFails _ f hEnd hRefuses) hRefuses⟩

/-- What never refuses refuses nothing that was sent. -/
theorem Innocent.refusesUnsent {x : Wire → α × Wire} (h : Innocent fails x) : RefusesUnsent fails x :=
  fun w hPlain => ⟨(h w hPlain).1, fun f hFails hRefuses => absurd hRefuses ((h w hPlain).2 f hFails)⟩

/-- A result without a request is innocent when it is no refusal. -/
theorem innocent_done {x : Wire → α × Wire} {a : α} (hx : ∀ w, x w = (a, w))
    (ha : ∀ f, fails a f → ¬ f.Refuses) : Innocent fails x := by
  intro w hPlain
  rw [hx]
  exact ⟨hPlain, ha⟩

/-- A result without a request sends nothing, a refusal included. -/
theorem refusesUnsent_done {x : Wire → α × Wire} {a : α} (hx : ∀ w, x w = (a, w)) :
    RefusesUnsent fails x := by
  intro w hPlain
  rw [hx]
  exact ⟨hPlain, fun _ _ _ => rfl⟩

/-- A first part, and what follows it on the wire that it leaves. -/
theorem Innocent.andThen {x : Wire → α × Wire} {z : Wire → β × Wire} (next : α → Wire → β × Wire)
    (hz : ∀ w, z w = next (x w).1 (x w).2) (hFirst : Innocent fails x)
    (hNext : ∀ a, (∀ f, fails a f → ¬ f.Refuses) → Innocent fails' (next a)) :
    Innocent fails' z := by
  intro w hPlain
  obtain ⟨hLater, hFails⟩ := hFirst w hPlain
  rw [hz]
  exact hNext _ hFails _ hLater

/-- An outcome that is looked at in another way. -/
theorem Innocent.map {x : Wire → α × Wire} {z : Wire → β × Wire} (g : α → β)
    (hz : ∀ w, z w = (g (x w).1, (x w).2)) (hFirst : Innocent fails x)
    (hFails : ∀ a, (∀ f, fails a f → ¬ f.Refuses) → ∀ f, fails' (g a) f → ¬ f.Refuses) :
    Innocent fails' z :=
  hFirst.andThen (fun a w => (g a, w)) hz fun a ha => innocent_done (fun _ => rfl) (hFails a ha)

end Wire

namespace Exchange

open BlockingExecutor (Fails)
open Wire (Innocent RefusesUnsent)

variable {α β : Type}

/-- A result that is no refusal is innocent. -/
theorem innocent_ofResult {a : Result α} (h : FailsAs (¬ ·.Refuses) a) :
    Innocent Fails (ofResult a).runOver :=
  Wire.innocent_done (fun _ => rfl) h

/-- Two innocent parts one after the other are innocent. -/
theorem innocent_bind {x : Exchange α} {next : α → Exchange β} (hFirst : Innocent Fails x.runOver)
    (hNext : ∀ a, Innocent Fails (next a).runOver) : Innocent Fails (x >>= next).runOver := by
  refine hFirst.andThen (ExceptT.bindCont next) (fun _ => rfl) fun a ha => ?_
  cases a with
  | error f =>
      refine Wire.innocent_done (fun _ => rfl) ?_
      intro _ hFails
      rw [← Except.error.inj hFails]
      exact ha f rfl
  | ok a => exact hNext a

/-- A run that refuses before it sends anything, and what follows it. -/
theorem refusesUnsent_bind {x : Exchange α} {next : α → Exchange β}
    (hFirst : RefusesUnsent Fails x.runOver) (hNext : ∀ a, Innocent Fails (next a).runOver) :
    RefusesUnsent Fails (x >>= next).runOver := by
  intro w hPlain
  obtain ⟨hLater, hUnsent⟩ := hFirst w hPlain
  have hRun := runOver_bind x next w
  cases hx : x.runOver w with
  | mk result w' =>
      rw [hx] at hRun hLater hUnsent
      rw [hRun]
      cases result with
      | error f =>
          refine ⟨hLater, fun f' hFails hRefuses => ?_⟩
          obtain rfl := Except.error.inj hFails
          exact hUnsent f rfl hRefuses
      | ok a =>
          obtain ⟨hEnd, hInnocent⟩ := hNext a w' hLater
          exact ⟨hEnd, fun f hFails hRefuses => absurd hRefuses (hInnocent f hFails)⟩

/-- What follows something that has been compiled already. -/
theorem innocent_compiled {a : Result α} {next : α → Exchange β} {x : α} (ha : a = .ok x)
    (hNext : Innocent Fails (next x).runOver) : Innocent Fails (ofResult a >>= next).runOver := by
  rw [ha]
  exact hNext

/-- What is compiled before anything is sent. -/
theorem refusesUnsent_compiled {a : Result α} {next : α → Exchange β}
    (hNext : ∀ x, a = .ok x → RefusesUnsent Fails (next x).runOver) :
    RefusesUnsent Fails (ofResult a >>= next).runOver := by
  cases a with
  | error f => exact Wire.refusesUnsent_done fun _ => rfl
  | ok x => exact hNext x rfl

/-- A request that is sent is not refused by its compilation. -/
theorem innocent_execute (site : Site) (request : Request) :
    Innocent Fails (execute site request).runOver := by
  intro w hPlain
  rw [execute, runOver_mk]
  dsimp only
  split
  next f hFailed =>
    refine ⟨hPlain.ask _ request, ?_⟩
    intro _ hFails
    rw [← Except.error.inj hFails]
    exact hPlain.not_refuses site hFailed
  next => exact ⟨hPlain.ask _ request, by rintro _ ⟨⟩⟩

/-- Requests that are sent are not refused by their compilation. -/
theorem innocent_executeAll (site : Site) (requests : List Request) :
    Innocent Fails (executeAll site requests).runOver := by
  induction requests with
  | nil => exact innocent_ofResult (.ok _)
  | cons request requests ih =>
      refine innocent_bind (innocent_execute site request) fun first => ?_
      exact innocent_bind ih fun rest => innocent_ofResult (.ok _)

/-- The rows of a request, and what ended them. -/
theorem innocent_rows (site : Site) (request : Request) (enough : Nat → Row → Bool) :
    Innocent (fun a f => a.2 = some f) fun w => w.fetch site request enough := by
  intro w hPlain
  refine ⟨hPlain.ask enough request, ?_⟩
  intro f hFailed
  obtain ⟨cause, hCause, rfl⟩ := Option.map_eq_some_iff.mp hFailed
  exact hPlain.not_refuses site hCause

/-- A question that is asked is not refused by its compilation. -/
theorem innocent_fetch (site : Site) (request : Request) (enough : Nat → Row → Bool) :
    Innocent Fails (fetch site request enough).runOver := by
  refine (innocent_rows site request enough).map (fun a => a.2.elim (.ok a.1) .error) (fun _ => rfl) ?_
  rintro ⟨rows, _ | f⟩ ha _ ⟨⟩
  exact ha f rfl

theorem innocent_fetchFirst (site : Site) (request : Request) :
    Innocent Fails (fetchFirst site request).runOver :=
  innocent_bind (innocent_fetch site request _) fun _ => innocent_ofResult (.ok _)

end Exchange

end SqlMapper
