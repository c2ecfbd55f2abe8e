import SovereignNetwork.Engine.Quorums

/-!
# Rejected proposals

`on_proposal` moves the engine to the round of a proposal before the admission gate looks at the proposal.
-/

namespace SovereignNetwork.Engine

open Lib

variable {X : Externals} {env : Env} {s s' : EngineState} {p : ConsensusProposal}

namespace EngineState

/-- One of the three checks of `on_proposal` fails. -/
def Rejects (X : Externals) (env : Env) (s : EngineState) (p : ConsensusProposal) : Prop :=
  (s.validateNoForkProposal p.height p.round p.id).isOk = false ∨ s.isProposalRelevant p = false ∨
    (s.validateIncomingProposal X env p).isOk = false

instance : Decidable (s.Rejects X env p) := inferInstanceAs (Decidable (_ ∨ _))

/-- The proposal is relevant and of a later round. -/
def movesRound (s : EngineState) (p : ConsensusProposal) : Bool := s.isProposalRelevant p && decide (s.round < p.round)

/-! ## The gate before and after a change of round -/

theorem validatorSetForHeight_snapshotValidatorSet (height : Nat) (s : EngineState) :
    (s.snapshotValidatorSet height).validatorSetForHeight height =
      some ((s.validatorSetForHeight height).getD s.activeIds) := by
  unfold snapshotValidatorSet validatorSetForHeight
  cases hfind : s.validatorSetHistory.find? fun snapshot => snapshot.height = height with
  | some snapshot =>
    have hany : (s.validatorSetHistory.any fun snapshot => snapshot.height = height) = true := by
      rw [List.any_eq_true]
      exact ⟨snapshot, List.mem_of_find?_eq_some hfind, by simpa using List.find?_some hfind⟩
    rw [if_pos hany, hfind]
    rfl
  | none =>
    have hnot := List.find?_eq_none.mp hfind
    have hany : ¬ (s.validatorSetHistory.any fun snapshot => snapshot.height = height) = true := by
      rw [List.any_eq_true]
      exact fun ⟨snapshot, hmem, heq⟩ => hnot snapshot hmem heq
    have hlast {history : List ValidatorSetSnapshot} (h : ∀ x ∈ history, x ∈ s.validatorSetHistory) :
        List.find? (fun snapshot : ValidatorSetSnapshot => snapshot.height = height)
          (history ++ [⟨height, s.activeIds⟩]) = some ⟨height, s.activeIds⟩ := by
      rw [List.find?_append, List.find?_eq_none.mpr fun x hx => hnot x (h x hx)]
      simp
    rw [if_neg hany]
    dsimp only
    split
    · rename_i hlong
      cases hhistory : s.validatorSetHistory with
      | nil => simp [hhistory] at hlong
      | cons first rest =>
        rw [List.cons_append, List.tail_cons, hlast fun x hx => hhistory ▸ List.mem_cons_of_mem _ hx]
        rfl
    · rw [hlast fun x hx => hx]
      rfl

theorem computeProposerForRound_snapshotValidatorSet (height round : Nat) (s : EngineState) :
    (s.snapshotValidatorSet height).computeProposerForRound height round = s.computeProposerForRound height round := by
  unfold computeProposerForRound
  rw [validatorSetForHeight_snapshotValidatorSet]
  cases s.validatorSetForHeight height <;> rfl

theorem validatorManager_snapshotValidatorSet (height : Nat) (s : EngineState) :
    (s.snapshotValidatorSet height).validatorManager = s.validatorManager := by
  unfold snapshotValidatorSet
  split <;> rfl

theorem validateIncomingProposal_congr (hmanager : s'.validatorManager = s.validatorManager)
    (hproposer : s'.computeProposerForRound p.height p.round = s.computeProposerForRound p.height p.round) :
    s'.validateIncomingProposal X env p = s.validateIncomingProposal X env p := by
  unfold validateIncomingProposal verifyProposalSignature
  rw [hmanager, hproposer]

theorem validateIncomingProposal_syncRound (hheight : p.height = s.height) (round : Nat) :
    (s.syncRound round).validateIncomingProposal X env p = s.validateIncomingProposal X env p := by
  unfold syncRound
  split
  · refine validateIncomingProposal_congr (validatorManager_snapshotValidatorSet _ _) ?_
    rw [hheight, computeProposerForRound_snapshotValidatorSet]
    rfl
  · rfl

/-! ## The effect of a rejected proposal -/

theorem height_eq_of_isProposalRelevant (h : s.isProposalRelevant p = true) : p.height = s.height := by
  unfold isProposalRelevant at h
  split at h
  · cases h
  · exact of_not_not ‹_›

theorem validateNoForkProposal_of_movesRound (h : s.movesRound p = true) :
    s.validateNoForkProposal p.height p.round p.id = .ok () := by
  obtain ⟨hrelevant, hround⟩ := Bool.and_eq_true_iff.mp h
  have hheight := height_eq_of_isProposalRelevant hrelevant
  have hround := of_decide_eq_true hround
  unfold validateNoForkProposal
  rw [if_neg (by omega), if_neg (by omega)]

theorem syncRound_of_not_movesRound (hrelevant : s.isProposalRelevant p = true) (h : s.movesRound p = false) :
    s.syncRound p.round = s := by
  rw [movesRound, hrelevant, Bool.true_and, decide_eq_false_iff_not] at h
  exact if_neg h

theorem onProposal_of_rejects (h : s.Rejects X env p) :
    s.onProposal X env p = (.ok (), if s.movesRound p then s.syncRound p.round else s) := by
  unfold onProposal
  cases hfork : s.validateNoForkProposal p.height p.round p.id with
  | error err =>
    cases hmoves : s.movesRound p with
    | false => rfl
    | true =>
      rw [validateNoForkProposal_of_movesRound hmoves] at hfork
      cases hfork
  | ok u =>
    cases hrelevant : s.isProposalRelevant p with
    | false =>
      rw [movesRound, hrelevant]
      rfl
    | true =>
      have hsync : (if s.movesRound p then s.syncRound p.round else s) = s.syncRound p.round := by
        cases hmoves : s.movesRound p with
        | false => exact (syncRound_of_not_movesRound hrelevant hmoves).symm
        | true => rfl
      rw [hsync]
      -- only the gate is left to reject
      rcases h with h | h | h
      · rw [hfork] at h
        cases h
      · rw [hrelevant] at h
        cases h
      · dsimp only
        rw [if_neg (by simp), validateIncomingProposal_syncRound (height_eq_of_isProposalRelevant hrelevant)]
        cases hvalid : s.validateIncomingProposal X env p with
        | ok u =>
          rw [hvalid] at h
          cases h
        | error err => split <;> rfl

theorem round_syncRound_of_movesRound (h : s.movesRound p = true) : (s.syncRound p.round).round ≠ s.round := by
  have hround := of_decide_eq_true (Bool.and_eq_true_iff.mp h).2
  rw [syncRound, if_pos hround, (quiet_snapshotValidatorSet _ _).round]
  exact Nat.ne_of_gt hround

theorem syncRound_keeps (round : Nat) (s : EngineState) :
    (s.syncRound round).pendingProposals = s.pendingProposals ∧ (s.syncRound round).votePool = s.votePool := by
  unfold syncRound
  split
  · exact ⟨(quiet_snapshotValidatorSet _ _).pending, (quiet_snapshotValidatorSet _ _).pool⟩
  · exact ⟨rfl, rfl⟩

/-- A rejected proposal never touches the pending proposals and the votes. It leaves the round exactly if it is not of a
later round, and then it leaves the whole engine as it was. -/
theorem rejected_proposal_has_no_effect (h : s.Rejects X env p) :
    (s.onProposal X env p).2.pendingProposals = s.pendingProposals ∧
      (s.onProposal X env p).2.votePool = s.votePool ∧
      ((s.onProposal X env p).2.round = s.round ↔ s.movesRound p = false) ∧
      (s.onProposal X env p = (.ok (), s) ↔ s.movesRound p = false) := by
  rw [onProposal_of_rejects h]
  cases hmoves : s.movesRound p with
  | false => simp
  | true =>
    have hround := round_syncRound_of_movesRound hmoves
    refine ⟨(syncRound_keeps p.round s).1, (syncRound_keeps p.round s).2, iff_of_false hround nofun, iff_of_false ?_ nofun⟩
    exact fun heq => hround (congrArg (fun r => r.2.round) heq)

end EngineState

/-! ## A stranger -/

theorem stranger_of_same_round_ignored :
    (runOfOne [.start]).Rejects zeroScheme (chainAt 0) (proposalOf 9 0 7) ∧
      (runOfOne [.start]).onProposal zeroScheme (chainAt 0) (proposalOf 9 0 7) = (.ok (), runOfOne [.start]) := by
  have hrejects : (runOfOne [.start]).Rejects zeroScheme (chainAt 0) (proposalOf 9 0 7) := by decide +kernel
  exact ⟨hrejects, (EngineState.rejected_proposal_has_no_effect hrejects).2.2.2.mpr (by decide +kernel)⟩

def prevoted : List Input :=
  [.start, .propose (proposalOf 2 0 7), .vote (voteOf 2 .preVote 0 7), .vote (voteOf 3 .preVote 0 7)]

/-- A proposal of the last round from an identity that is not a validator is rejected, but ends the round in which the
quorum was, and after the timeouts of that last round the round number is 0 again. -/
theorem stranger_moves_round :
    (runOfOne prevoted).Rejects zeroScheme (chainAt 0) (proposalOf 9 4294967295 8) ∧
      (runOfOne prevoted).round = 0 ∧ (runOfOne prevoted).step = .preCommit ∧
      (runOfOne prevoted).proposals = [7] ∧ (runOfOne prevoted).validProposal = some 7 ∧
      (runOfOne (prevoted ++ [.propose (proposalOf 9 4294967295 8)])).round = 4294967295 ∧
      (runOfOne (prevoted ++ [.propose (proposalOf 9 4294967295 8)])).step = .propose ∧
      (runOfOne (prevoted ++ [.propose (proposalOf 9 4294967295 8)])).proposals = [] ∧
      (runOfOne (prevoted ++ [.propose (proposalOf 9 4294967295 8)])).validProposal = none ∧
      (runOfOne (prevoted ++ [.propose (proposalOf 9 4294967295 8), .timer, .timer, .timer, .timer])).round = 0 := by
  decide +kernel

end SovereignNetwork.Engine
