import Mathlib.Logic.Function.Basic
import SovereignNetwork.Lib.Run

/-!
# Networks of machines

A family of copies of one machine, of which an event moves one. A run of the network is, at each member, a run of
the machine on the events of that member.
-/

namespace SovereignNetwork.Lib

variable {ι σ ℓ : Type} [DecidableEq ι] {step : σ → ℓ → σ}

def netStep (step : σ → ℓ → σ) (w : ι → σ) (l : ι × ℓ) : ι → σ := Function.update w l.1 (step (w l.1) l.2)

def eventsOf (i : ι) (ls : List (ι × ℓ)) : List ℓ := ls.filterMap fun l => if l.1 = i then some l.2 else none

theorem eventsOf_cons_self (i : ι) (l : ℓ) (ls : List (ι × ℓ)) : eventsOf i ((i, l) :: ls) = l :: eventsOf i ls := by
  simp [eventsOf]

theorem eventsOf_cons_of_ne {i j : ι} (h : j ≠ i) (l : ℓ) (ls : List (ι × ℓ)) :
    eventsOf i ((j, l) :: ls) = eventsOf i ls := by
  simp [eventsOf, h]

theorem run_netStep (w : ι → σ) (ls : List (ι × ℓ)) (i : ι) :
    run (netStep step) w ls i = run step (w i) (eventsOf i ls) := by
  induction ls generalizing w with
  | nil => rfl
  | cons l ls ih =>
    obtain ⟨j, l⟩ := l
    rw [run_cons, ih]
    by_cases h : j = i
    · subst h
      rw [eventsOf_cons_self, run_cons, netStep, Function.update_self]
    · rw [eventsOf_cons_of_ne h, netStep, Function.update_of_ne (Ne.symm h)]

theorem Along.member {ok : (ι → σ) → ι × ℓ → Prop} {ok' : σ → ℓ → Prop} {w : ι → σ} {ls : List (ι × ℓ)} (i : ι)
    (hok : ∀ w l, ok w (i, l) → ok' (w i) l) (h : Along (netStep step) ok w ls) :
    Along step ok' (w i) (eventsOf i ls) := by
  induction ls generalizing w with
  | nil => trivial
  | cons l ls ih =>
    obtain ⟨j, l⟩ := l
    have htail := ih h.2
    by_cases hj : j = i
    · subst hj
      rw [eventsOf_cons_self]
      refine ⟨hok w l h.1, ?_⟩
      rw [netStep, Function.update_self] at htail
      exact htail
    · rw [eventsOf_cons_of_ne hj]
      rw [netStep, Function.update_of_ne (Ne.symm hj)] at htail
      exact htail

theorem Along.before_last {τ m : Type} {next : τ → m → τ} {ok : τ → m → Prop} {r : τ → τ → Prop} (hrefl : ∀ s, r s s)
    (htrans : ∀ a b c, r a b → r b c → r a c) (hnext : ∀ s l, r s (next s l)) {s : τ} {ls : List m}
    (h : Along next ok s ls) : Along next (fun a l => ok a l ∧ r a (run next s ls)) s ls := by
  have hrun : ∀ (ls : List m) (s : τ), r s (run next s ls) := by
    intro ls
    induction ls with
    | nil => exact hrefl
    | cons l ls ih => exact fun s => htrans _ _ _ (hnext s l) (ih _)
  induction ls generalizing s with
  | nil => trivial
  | cons l ls ih => exact ⟨⟨h.1, hrun (l :: ls) s⟩, ih h.2⟩

end SovereignNetwork.Lib
