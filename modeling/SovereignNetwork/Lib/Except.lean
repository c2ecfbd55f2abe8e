import Mathlib.Logic.Basic

/-!
# Success of fallible code

A block of checks succeeds when every check passes and every call succeeds.
-/

namespace SovereignNetwork.Lib

variable {ε α β : Type}

theorem bind_eq_ok {x : Except ε α} {f : α → Except ε β} {b : β} :
    x >>= f = .ok b ↔ ∃ a, x = .ok a ∧ f a = .ok b := by
  cases x with
  | error e => simp [bind, Except.bind]
  | ok a => simp [bind, Except.bind]

theorem throw_eq_ok {e : ε} {a : α} : (throw e : Except ε α) = .ok a ↔ False := by
  simp [throw, throwThe, MonadExceptOf.throw]

theorem pure_eq_ok {a b : α} : (pure a : Except ε α) = .ok b ↔ a = b := by
  simp [pure, Except.pure]

/-- An early return with an error is a guard on the rest of the block. -/
theorem guard_eq_ok {p : Prop} [Decidable p] {e : ε} {k : α → Except ε β} {x : Except ε β} {b : β} :
    (if p then throw e >>= k else x) = .ok b ↔ ¬ p ∧ x = .ok b := by
  by_cases hp : p
  · simp [hp, bind_eq_ok, throw_eq_ok]
  · simp [hp]

/-- The value, or an error where there is none (`ok_or`). -/
def okOr (x : Option α) (e : ε) : Except ε α := x.elim (throw e) pure

theorem okOr_eq_ok {x : Option α} {e : ε} {a : α} : okOr x e = .ok a ↔ x = some a := by
  cases x with
  | none => simp [okOr, throw_eq_ok]
  | some a => simp [okOr, pure_eq_ok]

theorem mapError_eq_ok {ε' : Type} {f : ε → ε'} {x : Except ε α} {a : α} : x.mapError f = .ok a ↔ x = .ok a := by
  cases x with
  | error e => exact ⟨fun h => (by cases h), fun h => (by cases h)⟩
  | ok a => exact ⟨fun h => (by cases h; rfl), fun h => (by cases h; rfl)⟩

theorem exists_ok_of_map_eq_some {x : Except ε α} {f : α → β} {b : β} (h : x.toOption.map f = some b) :
    ∃ a, x = .ok a ∧ f a = b := by
  cases x with
  | error e => cases h
  | ok a => exact ⟨a, rfl, Option.some.inj h⟩

/-! ## Failure -/

theorem bind_eq_error {x : Except ε α} {f : α → Except ε β} {e : ε} :
    x >>= f = .error e ↔ x = .error e ∨ ∃ a, x = .ok a ∧ f a = .error e := by
  cases x with
  | error e => simp [bind, Except.bind]
  | ok a => simp [bind, Except.bind]

theorem guard_eq_error {p : Prop} [Decidable p] {e e' : ε} {k : α → Except ε β} {x : Except ε β} :
    (if p then throw e >>= k else x) = .error e' ↔ p ∧ e = e' ∨ ¬ p ∧ x = .error e' := by
  by_cases hp : p
  · simp [hp, throw, throwThe, MonadExceptOf.throw, bind, Except.bind]
  · simp [hp]

theorem okOr_eq_error {x : Option α} {e e' : ε} : okOr x e = .error e' ↔ x = none ∧ e = e' := by
  cases x with
  | none => simp [okOr, throw, throwThe, MonadExceptOf.throw]
  | some a => simp [okOr, pure, Except.pure]

theorem mapError_eq_error {ε' : Type} {f : ε → ε'} {x : Except ε α} {e : ε'} (h : x.mapError f = .error e) :
    ∃ e', x = .error e' ∧ f e' = e := by
  cases x with
  | error e' => exact ⟨e', rfl, Except.error.inj h⟩
  | ok a => cases h

theorem pure_ne_error {a : α} {e : ε} : (pure a : Except ε α) = .error e ↔ False := by
  simp [pure, Except.pure]

end SovereignNetwork.Lib
