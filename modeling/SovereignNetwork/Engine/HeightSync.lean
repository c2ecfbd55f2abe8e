import SovereignNetwork.Engine.Equivocation

/-!
# The height after a failed synchronisation

A synchronisation writes the height before it checks that the height grows.
-/

namespace SovereignNetwork.Engine

open Lib Validators

variable {X : Externals} {s : EngineState} {e : Event} {env : Env}

theorem syncHeight_ok_iff : (s.syncHeightWithBlockchain env).1 = .ok () ↔
    ∀ height, env.reportedHeight = some height → s.height ≤ height + 1 := by
  cases hr : env.reportedHeight with
  | none => simp [syncHeight_none hr]
  | some height =>
    rw [(syncHeight_some hr).2]
    simp only [Option.some.injEq, forall_eq']
    omega

theorem height_of_syncHeight_error (h : (s.syncHeightWithBlockchain env).1 ≠ .ok ()) :
    (s.syncHeightWithBlockchain env).2.height ≠ s.height := by
  cases hr : env.reportedHeight with
  | none => exact absurd (by rw [syncHeight_none hr]) h
  | some height =>
    rw [Ne, (syncHeight_some hr).2] at h
    rw [(syncHeight_some hr).1]
    dsimp only
    omega

theorem votesKnown_step (hheight : HeightKept s e) (hround : RoundKept s e) (hs : s.VotesKnown) :
    (step X s e).VotesKnown :=
  step_invariant (A := fun _ _ _ => True) (fun _ _ _ => trivial) (fun hs => hs.move hheight hround (relocation e s))
    (fun _ _ ht hs => hs.transition ht) hs

theorem votesKnown_new (identity : Option IdentityId) (keypair : Option DilithiumPk) (manager : ValidatorManager) :
    (EngineState.new identity keypair manager).VotesKnown := (honest_new identity keypair manager).votesKnown

theorem roundAfterCommitTimeout_after (hheight : HeightKept s e) (hround : RoundKept s e) (hinput : e.input = .timer)
    (hbft : s.isBftModeActive = true) (hstep : s.step = .commit) (hs : s.VotesKnown) {v : ConsensusVote}
    (hv : v ∈ s.castVotes) : (s.roundAfterCommitTimeout e.env).After v.height v.round := by
  have hplace : relocate e s = s.roundAfterCommitTimeout e.env := by simp [relocate, hinput, hbft, hstep]
  have hle := hs.place v (EngineState.mem_castVotes.mp hv)
  rw [← hplace]
  unfold EngineState.After
  unfold EngineState.AtOrAfter at hle
  rcases (relocation e s).forward hheight hround with hlt | ⟨-, -, hsame, -⟩
  · unfold EngineState.After at hlt
    omega
  · rw [hplace, step_roundAfterCommitTimeout, hstep] at hsame
    cases hsame

/-- A synchronisation succeeds exactly in the states that the chain has caught up with, and one that fails has changed the
height. On a chain whose height never decreases a commit timeout moves the engine to a height and round in which it has
not voted. -/
theorem commit_timeout_moves_to_new_place (identity : Option IdentityId) (keypair : Option DilithiumPk)
    (manager : ValidatorManager) (events : List Event) (e : Event)
    (hprovider : (reportedHeights (events ++ [e])).Pairwise (· ≤ ·))
    (hevents : Along (step X) RoundKept (.new identity keypair manager) (events ++ [e])) :
    (∀ (s : EngineState) (env : Env),
      ((s.syncHeightWithBlockchain env).1 = .ok () ↔
        ∀ height, env.reportedHeight = some height → s.height ≤ height + 1) ∧
      ((s.syncHeightWithBlockchain env).1 ≠ .ok () → (s.syncHeightWithBlockchain env).2.height ≠ s.height)) ∧
    let s := run (step X) (.new identity keypair manager) events
    e.input = .timer → s.isBftModeActive = true → s.step = .commit → ∀ v ∈ s.castVotes,
      ((step X s e).height, (step X s e).round) ≠ (v.height, v.round) := by
  have hheights : Along (step X) HeightKept (.new identity keypair manager) (events ++ [e]) :=
    along_heightKept _ hprovider fun height _ => Nat.zero_le _
  obtain ⟨hrun, hlast, -⟩ := Along.append.mp (hheights.and hevents)
  have hs := hrun.invariant (I := EngineState.VotesKnown) (fun s e h hs => votesKnown_step h.1 h.2 hs)
    (votesKnown_new identity keypair manager)
  refine ⟨fun _ _ => ⟨syncHeight_ok_iff, height_of_syncHeight_error⟩, ?_⟩
  intro s hinput hbft hstep v hv heq
  have hafter : (s.roundAfterCommitTimeout e.env).After v.height v.round :=
    roundAfterCommitTimeout_after hlast.1 hlast.2 hinput hbft hstep hs hv
  have hplace := place_step X s e
  have hmoved : relocate e s = s.roundAfterCommitTimeout e.env := by simp [relocate, hinput, hbft, hstep]
  rw [hmoved] at hplace
  rw [Prod.mk.injEq, hplace.1, hplace.2] at heq
  unfold EngineState.After at hafter
  omega

/-! ## A chain that falls behind -/

def secondProposal : ConsensusProposal :=
  ⟨7, 3, 2, 0, 1, 0, [], 2, zeroSigned 3, ⟨.byzantineFaultTolerance, []⟩⟩

def voteAtTwo : List Event :=
  [.start, .propose secondProposal, .timer, .timer].map fun input => ⟨chainAt 1, input⟩

def waitingAtTwo : EngineState := run (step zeroScheme) (.new (some 1) (some 11) fourValidators) voteAtTwo

theorem timeout_at_two_moves_on :
    waitingAtTwo.castVotes.map (fun v => (v.height, v.round)) = [(2, 0)] ∧
      ∀ v ∈ waitingAtTwo.castVotes, ((step zeroScheme waitingAtTwo ⟨chainAt 1, .timer⟩).height,
        (step zeroScheme waitingAtTwo ⟨chainAt 1, .timer⟩).round) ≠ (v.height, v.round) :=
  ⟨by decide +kernel,
    (commit_timeout_moves_to_new_place (X := zeroScheme) (some 1) (some 11) fourValidators voteAtTwo
      ⟨chainAt 1, .timer⟩ (by decide +kernel) (by decide +kernel)).2 rfl (by decide +kernel) (by decide +kernel)⟩

/-- The chain reports height 0 to the engine at height 2: the height is lost, and the fallback starts height 2 again. -/
theorem failed_sync_returns_to_voted_place :
    waitingAtTwo.height = 2 ∧ waitingAtTwo.step = .commit ∧
      (waitingAtTwo.syncHeightWithBlockchain (chainAt 0)).1.isOk = false ∧
      (waitingAtTwo.syncHeightWithBlockchain (chainAt 0)).2.height = 1 ∧
      (waitingAtTwo.castVotes.map fun v => (v.height, v.round)) = [(2, 0)] ∧
      ((step zeroScheme waitingAtTwo ⟨chainAt 0, .timer⟩).height,
        (step zeroScheme waitingAtTwo ⟨chainAt 0, .timer⟩).round) = (2, 0) := by
  decide +kernel

end SovereignNetwork.Engine
