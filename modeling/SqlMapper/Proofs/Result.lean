import SqlMapper.Failure

/-! Computations that may fail, taken apart. -/
namespace SqlMapper.Result

variable {α β γ δ : Type} {ε : Type}

/-- A sequence succeeds when both of its parts do. -/
theorem bind_eq_ok_iff {x : Except ε α} {f : α → Except ε β} {b : β} :
    (x >>= f) = .ok b ↔ ∃ a, x = .ok a ∧ f a = .ok b := by
  cases x with
  | error e => simp [bind, Except.bind]
  | ok a => simp [bind, Except.bind]

theorem map_eq_ok_iff {x : Except ε α} {f : α → β} {b : β} :
    x.map f = .ok b ↔ ∃ a, x = .ok a ∧ f a = b := by
  cases x with
  | error e => simp [Except.map]
  | ok a => simp [Except.map]

theorem map_eq_error_iff {x : Except ε α} {f : α → β} {e : ε} :
    x.map f = .error e ↔ x = .error e := by
  cases x with
  | error e' => simp [Except.map]
  | ok a => simp [Except.map]

/-- Two runs agree on what is observed of the second step if they do so on the first, and whatever
is observed there decides the rest. -/
theorem map_bind_congr_ok {α' β' : Type} {x : Except ε α} {y : Except ε α'} {f : α → Except ε β}
    {g : α' → Except ε β'} {s : α → γ} {t : α' → γ} {s' : β → δ} {t' : β' → δ}
    (hFirst : x.map s = y.map t)
    (hNext : ∀ a b, x = .ok a → y = .ok b → s a = t b → (f a).map s' = (g b).map t') :
    (x >>= f).map s' = (y >>= g).map t' := by
  cases x with
  | error e =>
      cases y with
      | error e' =>
          obtain rfl : e = e' := by simpa [Except.map] using hFirst
          rfl
      | ok b => simp [Except.map] at hFirst
  | ok a =>
      cases y with
      | error e' => simp [Except.map] at hFirst
      | ok b => exact hNext a b rfl rfl (by simpa [Except.map] using hFirst)

/-- Sequences with alike parts are alike. -/
theorem map_bind_congr {x y : Except ε α} {f g : α → Except ε β} {s : α → γ} {s' : β → δ}
    (hFirst : x.map s = y.map s) (hNext : ∀ a b, s a = s b → (f a).map s' = (g b).map s') :
    (x >>= f).map s' = (y >>= g).map s' :=
  map_bind_congr_ok hFirst fun a b _ _ => hNext a b

/-- Two runs whose first step is the same. -/
theorem map_bind_congr_right_ok {β' : Type} {x : Except ε α} {f : α → Except ε β}
    {g : α → Except ε β'} {s : β → δ} {t : β' → δ}
    (hNext : ∀ a, x = .ok a → (f a).map s = (g a).map t) :
    (x >>= f).map s = (x >>= g).map t := by
  cases x with
  | error e => rfl
  | ok a => exact hNext a rfl

theorem map_bind_congr_right {x : Except ε α} {f g : α → Except ε β} {s : β → δ}
    (hNext : ∀ a, (f a).map s = (g a).map s) : (x >>= f).map s = (x >>= g).map s :=
  map_bind_congr_right_ok fun a _ => hNext a

/-- Two runs that throw the same. -/
theorem map_throw_congr {β' : Type} {e : ε} {f : PUnit → Except ε β} {g : PUnit → Except ε β'}
    {s : β → δ} {t : β' → δ} :
    ((throw e : Except ε PUnit) >>= f).map s = ((throw e : Except ε PUnit) >>= g).map t := rfl

/-- Two runs behind the same check that throws. -/
theorem map_guard_congr {β' : Type} {c : Bool} {e : ε} {f : PUnit → Except ε β}
    {g : PUnit → Except ε β'} {x : Except ε β} {y : Except ε β'} {s : β → δ} {t : β' → δ}
    (hNext : c = false → x.map s = y.map t) :
    (if c = true then (throw e : Except ε PUnit) >>= f else x).map s =
      (if c = true then (throw e : Except ε PUnit) >>= g else y).map t := by
  cases c with
  | true => exact map_throw_congr
  | false => exact hNext rfl

/-- A check that throws is passed where its condition does not hold. -/
theorem guard_eq_ok_iff {c : Bool} {e : ε} {f : PUnit → Except ε α} {x : Except ε α} {a : α} :
    (if c = true then (throw e : Except ε PUnit) >>= f else x) = .ok a ↔
      c = false ∧ x = .ok a := by
  cases c with
  | false => simp
  | true => simp [bind, Except.bind, throw, throwThe, MonadExceptOf.throw]

/-! ### Kinds of failures -/

/-- Whatever the computation fails with is of the kind. -/
def FailsAs (kind : ε → Prop) (x : Except ε α) : Prop := ∀ e, x = .error e → kind e

namespace FailsAs

variable {kind kind' : ε → Prop} {x : Except ε α} {f : α → Except ε β}

theorem ok (a : α) : FailsAs kind (.ok a : Except ε α) := by
  intro e h
  cases h

theorem error {e : ε} (h : kind e) : FailsAs kind (.error e : Except ε α) := by
  intro _ hError
  cases hError
  exact h

/-- What fails in one way fails in every way that is implied. -/
theorem mono (h : FailsAs kind x) (hKind : ∀ e, kind e → kind' e) : FailsAs kind' x :=
  fun e hError => hKind e (h e hError)

/-- A sequence fails as one of its parts does. -/
theorem bind (hFirst : FailsAs kind x) (hNext : ∀ a, x = .ok a → FailsAs kind (f a)) :
    FailsAs kind (x >>= f) := by
  intro e h
  cases hx : x with
  | error e' =>
      rw [hx] at h
      cases h
      exact hFirst _ hx
  | ok a =>
      rw [hx] at h
      exact hNext a hx e h

theorem map {g : α → β} (h : FailsAs kind x) : FailsAs kind (x.map g) := by
  intro e hError
  cases hx : x with
  | error e' =>
      rw [hx] at hError
      cases hError
      exact h _ hx
  | ok a =>
      rw [hx] at hError
      cases hError

/-- A check that throws, and what follows it where it is passed. -/
theorem guard {c : Bool} {e : ε} {f : PUnit → Except ε α} (he : kind e) (hx : FailsAs kind x) :
    FailsAs kind (if c = true then (throw e : Except ε PUnit) >>= f else x) := by
  cases c with
  | false => exact hx
  | true => exact error he

end FailsAs

end SqlMapper.Result
