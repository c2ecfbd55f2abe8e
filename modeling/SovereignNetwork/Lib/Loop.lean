/-!
# Loops that may not end

A turn of a loop goes on with a new state, returns, or panics. `loop` runs a number of turns; a loop ends if some number is
enough.
-/

namespace SovereignNetwork.Lib

inductive Turn (σ α : Type)
  | next (s : σ)
  | done (a : α)
  | panic
  deriving DecidableEq

inductive Outcome (α : Type)
  | done (a : α)
  | panic
  | running
  deriving DecidableEq

variable {σ α : Type}

def loop (turn : σ → Turn σ α) : Nat → σ → Outcome α
  | 0, _ => .running
  | n + 1, s =>
    match turn s with
    | .next s' => loop turn n s'
    | .done a => .done a
    | .panic => .panic

variable {turn : σ → Turn σ α} {s s' : σ} {a : α} {n : Nat}

theorem loop_of_next (h : turn s = .next s') (n : Nat) : loop turn (n + 1) s = loop turn n s' := by
  rw [loop, h]

theorem loop_of_done (h : turn s = .done a) (n : Nat) : loop turn (n + 1) s = .done a := by
  rw [loop, h]

theorem loop_of_variant (inv : σ → Prop) (post : α → Prop) (variant : σ → Nat)
    (hturn : ∀ s, inv s → (∃ a, turn s = .done a ∧ post a) ∨ ∃ s', turn s = .next s' ∧ inv s' ∧ variant s' < variant s)
    (hs : inv s) : ∃ a, (∀ n, variant s < n → loop turn n s = .done a) ∧ post a := by
  induction hv : variant s using Nat.strongRecOn generalizing s with
  | _ v ih =>
    subst hv
    rcases hturn s hs with ⟨a, hdone, ha⟩ | ⟨s', hnext, hs', hlt⟩
    · refine ⟨a, fun n hn => ?_, ha⟩
      obtain ⟨m, rfl⟩ := Nat.exists_eq_succ_of_ne_zero (Nat.ne_zero_of_lt hn)
      exact loop_of_done hdone m
    · obtain ⟨a, hloop, ha⟩ := ih (variant s') hlt hs' rfl
      refine ⟨a, fun n hn => ?_, ha⟩
      obtain ⟨m, rfl⟩ := Nat.exists_eq_succ_of_ne_zero (Nat.ne_zero_of_lt hn)
      exact (loop_of_next hnext m).trans (hloop m (by omega))

/-! ## States on the way -/

/-- The state after `n` turns, if the loop goes on for so long. -/
def reached (turn : σ → Turn σ α) : Nat → σ → Option σ
  | 0, s => some s
  | n + 1, s =>
    match turn s with
    | .next s' => reached turn n s'
    | _ => none

theorem reached_succ {s'' : σ} (h : reached turn n s = some s') (hnext : turn s' = .next s'') :
    reached turn (n + 1) s = some s'' := by
  induction n generalizing s with
  | zero =>
    cases h
    rw [reached, hnext]
    rfl
  | succ n ih =>
    rw [reached] at h ⊢
    split at h
    · exact ih h
    · cases h

theorem loop_of_reached (h : reached turn n s = some s') (m : Nat) : loop turn (n + m) s = loop turn m s' := by
  induction n generalizing s with
  | zero =>
    cases h
    rw [Nat.zero_add]
  | succ n ih =>
    rw [reached] at h
    split at h
    · rename_i next hnext
      rw [Nat.succ_add, loop_of_next hnext]
      exact ih h
    · cases h

theorem exists_reached_of_running (h : loop turn n s = .running) : ∃ s', reached turn n s = some s' := by
  induction n generalizing s with
  | zero => exact ⟨s, rfl⟩
  | succ n ih =>
    rw [loop] at h
    split at h
    · rename_i s' hnext
      rw [reached, hnext]
      exact ih h
    · cases h
    · cases h

theorem exists_reached_of_panic (h : loop turn n s = .panic) : ∃ m s', reached turn m s = some s' ∧ turn s' = .panic := by
  induction n generalizing s with
  | zero => cases h
  | succ n ih =>
    rw [loop] at h
    split at h
    · rename_i s' hnext
      obtain ⟨m, s'', hreached, hpanic⟩ := ih h
      exact ⟨m + 1, s'', by rw [reached, hnext]; exact hreached, hpanic⟩
    · cases h
    · exact ⟨0, s, rfl, ‹_›⟩

end SovereignNetwork.Lib
