import SovereignNetwork.Engine.Lemmas.Votes

/-!
# Height and round over a run
-/

namespace SovereignNetwork.Engine

open Lib Validators

variable {X : Externals} {A : Origin → EngineState → ConsensusProposal → Prop}
  {B : ConsensusVote → Prop} {s s' : EngineState} {e : Event}

/-- The height and round `(h, r)` come before the place of the engine, or are its place. -/
def EngineState.AtOrAfter (s : EngineState) (h r : Nat) : Prop :=
  h < s.height ∨ h = s.height ∧ r ≤ s.round

/-- The height and round come strictly before the place of the engine. -/
def EngineState.After (s : EngineState) (h r : Nat) : Prop :=
  h < s.height ∨ h = s.height ∧ r < s.round

theorem EngineState.AtOrAfter.of_place (hh : s'.height = s.height) (hr : s'.round = s.round) {h r : Nat}
    (hle : s.AtOrAfter h r) : s'.AtOrAfter h r := by
  unfold EngineState.AtOrAfter at *
  omega

/-- The provider does not report a height below the one the engine works on. -/
def HeightKept (s : EngineState) (e : Event) : Prop :=
  ∀ height, e.env.reportedHeight = some height → s.height ≤ height + 1

/-- The commit timeout does not overflow the round of a height. -/
def RoundKept (s : EngineState) (e : Event) : Prop :=
  e.input = .timer → s.step = .commit → (∀ height, e.env.reportedHeight = some height → height + 1 = s.height) →
    s.round + 1 < 2 ^ 32

instance (s : EngineState) (e : Event) : Decidable (HeightKept s e) :=
  inferInstanceAs (Decidable (∀ height, e.env.reportedHeight = some height → _))

instance (s : EngineState) (e : Event) : Decidable (RoundKept s e) :=
  decidable_of_iff (e.input.isTimer = true → s.step = .commit →
    (∀ height, e.env.reportedHeight = some height → height + 1 = s.height) → s.round + 1 < 2 ^ 32)
    (by rw [isTimer_iff]; rfl)

theorem Relocation.forward (hheight : HeightKept s e) (hround : RoundKept s e) (h : Relocation e s s') :
    s'.After s.height s.round ∨
      s'.height = s.height ∧ s'.round = s.round ∧ s'.step = s.step ∧ s'.proposals = s.proposals := by
  unfold EngineState.After
  cases h with
  | stay h => exact .inr ⟨h.height, h.round, h.step, h.proposals⟩
  | @sync height hr h =>
    have hle := hheight height hr
    have hh : s'.height = height + 1 := h.height
    by_cases heq : s.height = height + 1
    · exact .inr ⟨hh.trans heq.symm, h.round, h.step, h.proposals⟩
    · exact .inl (.inl (by omega))
  | @roundSync p hi hs hlt h =>
    have hh : s'.height = s.height := h.height
    have hr : s'.round = p.round := h.round
    exact .inl (.inr ⟨hh.symm, by omega⟩)
  | nextRound hi hs hr h =>
    have hlt := hround hi hs hr
    have hh : s'.height = s.height := h.height
    have hr' : s'.round = wrapU32 (s.round + 1) := h.round
    rw [wrapU32, Nat.mod_eq_of_lt hlt] at hr'
    exact .inl (.inr ⟨hh.symm, by omega⟩)
  | nextHeight hi hs hr hlt h =>
    have hh : s'.height = _ + 1 := h.height
    exact .inl (.inl (by omega))
  | fallback hi hs hr hlt h =>
    have hle := hheight _ hr
    omega

theorem Relocation.atOrAfter (hheight : HeightKept s e) (hround : RoundKept s e) (h : Relocation e s s') {h' r : Nat}
    (hle : s.AtOrAfter h' r) : s'.AtOrAfter h' r := by
  unfold EngineState.AtOrAfter at *
  rcases h.forward hheight hround with hlt | ⟨hh, hr, -, -⟩
  · unfold EngineState.After at hlt
    omega
  · omega

theorem Relocation.height_le (hheight : HeightKept s e) (h : Relocation e s s') : s.height ≤ s'.height := by
  cases h with
  | stay h => exact h.height.ge
  | sync hr h =>
    have hh : s'.height = _ + 1 := h.height
    have := hheight _ hr
    omega
  | roundSync hi hs hlt h => exact h.height.ge
  | nextRound hi hs hr h => exact h.height.ge
  | nextHeight hi hs hr hlt h =>
    have hh : s'.height = _ + 1 := h.height
    omega
  | fallback hi hs hr hlt h =>
    have := hheight _ hr
    omega

theorem Relocation.height_cases (hheight : HeightKept s e) (h : Relocation e s s') :
    s'.height = s.height ∨ ∃ height, e.env.reportedHeight = some height ∧ s'.height = height + 1 := by
  cases h with
  | stay h => exact .inl h.height
  | sync hr h => exact .inr ⟨_, hr, h.height⟩
  | roundSync hi hs hlt h => exact .inl h.height
  | nextRound hi hs hr h => exact .inl h.height
  | nextHeight hi hs hr hlt h => exact .inr ⟨_, hr, h.height⟩
  | fallback hi hs hr hlt h =>
    have := hheight _ hr
    omega

theorem trace_place (h : Trace X A B s s') : s'.height = s.height ∧ s'.round = s.round := by
  induction h with
  | refl => exact ⟨rfl, rfl⟩
  | tail _ ht ih => exact ⟨ht.place.1.trans ih.1, ht.place.2.trans ih.2⟩

theorem place_step (X : Externals) (s : EngineState) (e : Event) :
    (step X s e).height = (relocate e s).height ∧ (step X s e).round = (relocate e s).round :=
  trace_place (trace_step (A := fun _ _ _ => True) e fun _ _ _ => trivial)

def reportedHeights (events : List Event) : List Nat := events.filterMap fun e => e.env.reportedHeight

theorem along_heightKept (events : List Event) (hmono : (reportedHeights events).Pairwise (· ≤ ·))
    (hs : ∀ height ∈ reportedHeights events, s.height ≤ height + 1) : Along (step X) HeightKept s events := by
  induction events generalizing s with
  | nil => trivial
  | cons e events ih =>
    have hhead : HeightKept s e := fun height hr => hs height (by simp [reportedHeights, hr])
    refine ⟨hhead, ih ?_ ?_⟩
    · exact hmono.sublist ((List.sublist_cons_self e events).filterMap _)
    · intro height hmem
      rw [(place_step X s e).1]
      rcases (relocation e s).height_cases hhead with heq | ⟨first, hr, heq⟩
      · rw [heq]
        exact hs height (((List.sublist_cons_self e events).filterMap _).subset hmem)
      · rw [heq]
        have hcons : reportedHeights (e :: events) = first :: reportedHeights events := by
          simp [reportedHeights, hr]
        rw [hcons, List.pairwise_cons] at hmono
        exact Nat.add_le_add_right (hmono.1 height hmem) 1

end SovereignNetwork.Engine
