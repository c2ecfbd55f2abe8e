import Mathlib.Logic.Basic

/-!
# Methods that change their object

A method on `&mut self` that returns a `Result`. An early return keeps what was written before it, so a method that
fails may have changed its object. It is `Atomic` if it never does.
-/

namespace SovereignNetwork.Lib

def Method (σ ε α : Type) := σ → Except ε α × σ

namespace Method

variable {σ ε α β : Type} {m : Method σ ε α} {f : α → Method σ ε β} {s s' : σ} {a b : α} {e : ε} {p : Prop}
  [Decidable p]

protected def bind (m : Method σ ε α) (f : α → Method σ ε β) : Method σ ε β := fun s =>
  match m s with
  | (.ok a, s') => f a s'
  | (.error e, s') => (.error e, s')

instance : Monad (Method σ ε) where
  pure a := fun s => (.ok a, s)
  bind := Method.bind

def fail (e : ε) : Method σ ε α := fun s => (.error e, s)

def get : Method σ ε σ := fun s => (.ok s, s)

def modify (g : σ → σ) : Method σ ε Unit := fun s => (.ok (), g s)

/-- Returns the error unless `p` holds. -/
def check (p : Prop) [Decidable p] (e : ε) : Method σ ε Unit := if p then pure () else fail e

/-- The value, or an early return where there is none (`ok_or` with `?`). -/
def okOr (x : Option α) (e : ε) : Method σ ε α := x.elim (fail e) pure

/-! ## Success -/

theorem bind_of_ok (h : m s = (.ok a, s')) : (m >>= f) s = f a s' := by
  show Method.bind m f s = _
  rw [Method.bind, h]

theorem bind_of_error (h : m s = (.error e, s')) : (m >>= f) s = (.error e, s') := by
  show Method.bind m f s = _
  rw [Method.bind, h]

theorem bind_eq_ok {b : β} :
    (m >>= f) s = (.ok b, s') ↔ ∃ a s₁, m s = (.ok a, s₁) ∧ f a s₁ = (.ok b, s') := by
  constructor
  · intro h
    cases hm : m s with
    | mk result s₁ =>
      cases result with
      | ok a => exact ⟨a, s₁, rfl, (bind_of_ok hm).symm.trans h⟩
      | error e =>
        rw [bind_of_error hm] at h
        cases h
  · rintro ⟨a, s₁, hm, hf⟩
    rw [bind_of_ok hm, hf]

theorem get_bind {f : σ → Method σ ε α} : (get >>= f) s = f s s := rfl

theorem check_of (h : p) : (check p e : Method σ ε Unit) s = (.ok (), s) := by
  rw [check, if_pos h]
  rfl

theorem check_of_not (h : ¬ p) : (check p e : Method σ ε Unit) s = (.error e, s) := by
  rw [check, if_neg h]
  rfl

theorem check_eq_ok {u : Unit} : (check p e : Method σ ε Unit) s = (.ok u, s') ↔ p ∧ s = s' := by
  by_cases h : p
  · rw [check_of h]
    exact ⟨fun heq => ⟨h, (Prod.mk.inj heq).2⟩, fun heq => by rw [heq.2]⟩
  · rw [check_of_not h]
    exact ⟨fun heq => (by cases heq), fun heq => absurd heq.1 h⟩

theorem okOr_eq_ok {x : Option α} : (okOr x e : Method σ ε α) s = (.ok a, s') ↔ x = some a ∧ s = s' := by
  cases x with
  | none => exact ⟨fun h => (by cases h), fun h => (by cases h.1)⟩
  | some b =>
    constructor
    · intro h
      cases h
      exact ⟨rfl, rfl⟩
    · rintro ⟨hb, rfl⟩
      cases hb
      rfl

/-! ## Failure -/

def Atomic (m : Method σ ε α) : Prop := ∀ s e s', m s = (.error e, s') → s' = s

theorem Atomic.check_bind {m : Unit → Method σ ε α} (h : Atomic (m ())) : Atomic (check p e >>= m) := by
  intro s e' s' herror
  by_cases hp : p
  · rw [bind_of_ok (check_of hp)] at herror
    exact h s e' s' herror
  · rw [bind_of_error (check_of_not hp)] at herror
    exact (Prod.mk.inj herror).2.symm

theorem Atomic.okOr_bind {x : Option α} (h : ∀ a, Atomic (f a)) : Atomic (okOr x e >>= f) := by
  intro s e' s' herror
  cases x with
  | none => exact (Prod.mk.inj herror).2.symm
  | some a => exact h a s e' s' herror

theorem Atomic.get_bind {f : σ → Method σ ε α} (h : ∀ s, Atomic (f s)) : Atomic (get >>= f) :=
  fun s e s' herror => h s s e s' herror

theorem Atomic.modify {g : σ → σ} : Atomic (modify g : Method σ ε Unit) := fun _ _ _ h => by cases h

end Method

end SovereignNetwork.Lib
