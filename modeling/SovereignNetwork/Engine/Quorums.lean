import SovereignNetwork.Engine.Lemmas.Votes
import SovereignNetwork.Validators.Theorems

/-!
# Commit votes are backed by precommits

The commit step counts the precommits of every round of the height, so one validator can count several times.
-/

namespace SovereignNetwork.Engine

open Lib Validators

variable {X : Externals} {A : Origin → EngineState → ConsensusProposal → Prop}
  {B : ConsensusVote → Prop} {s s' : EngineState}

/-- The engine counts a supermajority of precommits, over all rounds, for every commit it has cast. -/
def EngineState.CommitsBacked (s : EngineState) : Prop :=
  ∀ v, .voteCast v ∈ s.log → v.voteType = .commit →
    hasSupermajority (s.countPrecommitsAnyRound v.height v.proposalId) s.activeCount = true

theorem EngineState.CommitsBacked.move (hc : Carried s s') (hs : s.CommitsBacked) : s'.CommitsBacked := by
  intro v hv ht
  exact hasSupermajority_countVotes hc.registry (fun r id _ => hc.holds) (hs v (hc.log ▸ hv) ht)

theorem EngineState.CommitsBacked.transition (h : Transition X A B s s') (hs : s.CommitsBacked) : s'.CommitsBacked := by
  intro v hv ht
  refine hasSupermajority_countVotes h.registry (fun r id _ => h.holds (.inl (by decide))) ?_
  rcases h.log_cases hv with hv | hnew
  · exact hs v hv ht
  · cases hnew with
    | vote hcast =>
      cases hcast with
      | prevote own => rw [own.voteType] at ht; cases ht
      | precommit own => rw [own.voteType] at ht; cases ht
      | commit own hkey hquorum => rw [own.height, own.proposalId]; exact hquorum

theorem Reached.commitsBacked {manager : ValidatorManager} (h : Reached X manager s) : s.CommitsBacked :=
  h.invariant (fun _ _ hc hs => hs.move hc) (fun _ _ ht hs => hs.transition ht)
    (fun _ _ _ hv => absurd hv List.not_mem_nil)

/-- If no validator has precommits for the proposal in two rounds, a commit that the engine has cast is backed
by precommits of a supermajority of distinct registered validators. -/
theorem commit_backed_by_distinct_precommits {manager : ValidatorManager} (hs : Reached X manager s)
    {v : ConsensusVote} (hv : v ∈ s.castVotes) (ht : v.voteType = .commit)
    (hsingle : s.SingleRound .preCommit v.height v.proposalId) :
    ∃ validators : Finset IdentityId, hasSupermajority validators.card s.activeCount = true ∧
      ∀ id ∈ validators, (s.keyOf id).isSome = true ∧ ∃ r, s.Holds .preCommit v.height r id v.proposalId := by
  refine ⟨s.voters .preCommit v.height (fun _ => true) v.proposalId, ?_, ?_⟩
  · rw [hsingle.card_voters]
    exact hs.commitsBacked v (EngineState.mem_castVotes.mp hv) ht
  · intro id hid
    obtain ⟨r, _, vote, hl⟩ := EngineState.mem_voters.mp hid
    exact ⟨by rw [(hs.poolValid _ _ _ hl).registered]; rfl, r, vote, hl⟩

/-! ## A committee of four -/

def fourValidators : ValidatorManager :=
  [1, 2, 3, 4].foldl (fun m i =>
    (m.registerValidator sqrtPower 0 (BitVec.ofNat _ i) (2000 * 1000000) 0 (BitVec.ofNat _ (10 + i)) [1] [2] 0).2)
    (.newWithDevelopmentMode 21 1000 false)

def zeroScheme : Externals where
  hashBlake3 _ := 0
  verify _ _ _ := .ok true
  sign _ _ := .ok (List.replicate 4595 0)
  verifyConsensusProof _ _ := .ok true
  votingPower := sqrtPower

def chainAt (height : Nat) : Env where
  now := 0
  provider := some ⟨.ok height, .ok 0, true, .ok [], fun _ => .ok (0, 0)⟩
  callback := some fun _ _ => .ok ()
  consensusProof := .ok ⟨.byzantineFaultTolerance, []⟩
  rewards := .ok ()

def zeroSigned (id : Nat) : PostQuantumSignature := ⟨List.replicate 4595 0, BitVec.ofNat _ (10 + id)⟩

def voteOf (id : Nat) (t : VoteType) (round : Nat) (pid : Hash) : ConsensusVote :=
  ⟨0, BitVec.ofNat _ id, pid, t, 1, round, 0, zeroSigned id⟩

def proposalOf (id round : Nat) (pid : Hash) : ConsensusProposal :=
  ⟨pid, BitVec.ofNat _ id, 1, round, 1, 0, [], 1, zeroSigned id, ⟨.byzantineFaultTolerance, []⟩⟩

def onEmptyChain (inputs : List Input) : List Event := inputs.map fun input => ⟨chainAt 0, input⟩

def runOfOne (inputs : List Input) : EngineState :=
  run (step zeroScheme) (.new (some 1) (some 11) fourValidators) (onEmptyChain inputs)

theorem reached_runOfOne (inputs : List Input) : Reached zeroScheme fourValidators (runOfOne inputs) :=
  ⟨_, _, _, rfl⟩

def precommitTwice : List Input :=
  [.start, .propose (proposalOf 2 0 7), .vote (voteOf 2 .preVote 0 7), .vote (voteOf 3 .preVote 0 7),
    .vote (voteOf 4 .preCommit 0 7), .vote (voteOf 4 .preCommit 1 7), .timer]

/-- The engine commits with precommits of two of the four validators. -/
theorem commit_with_two_precommitters :
    (∃ v ∈ (runOfOne precommitTwice).castVotes, v.voteType = .commit ∧ v.height = 1 ∧ v.proposalId = 7) ∧
      ∀ validators : Finset IdentityId, (∀ id ∈ validators, ∃ r, (runOfOne precommitTwice).Holds .preCommit 1 r id 7) →
        hasSupermajority validators.card (runOfOne precommitTwice).activeCount = false := by
  refine ⟨by decide +kernel, fun validators hholds => ?_⟩
  have hsub : validators ⊆ (runOfOne precommitTwice).voters .preCommit 1 (fun _ => true) 7 := by
    intro id hid
    obtain ⟨r, hr⟩ := hholds id hid
    exact EngineState.mem_voters.mpr ⟨r, rfl, hr⟩
  have htwo : hasSupermajority ((runOfOne precommitTwice).voters .preCommit 1 (fun _ => true) 7).card
      (runOfOne precommitTwice).activeCount = false := by decide +kernel
  by_contra hq
  rw [hasSupermajority_mono (Bool.of_not_eq_false hq) (Finset.card_le_card hsub)] at htwo
  cases htwo

def precommitOnce : List Input :=
  [.start, .propose (proposalOf 2 0 7), .vote (voteOf 2 .preVote 0 7), .vote (voteOf 3 .preVote 0 7),
    .vote (voteOf 2 .preCommit 0 7), .vote (voteOf 3 .preCommit 0 7)]

theorem commit_backed_by_three :
    ∃ v ∈ (runOfOne precommitOnce).castVotes, v.voteType = .commit ∧ ∃ validators : Finset IdentityId,
      hasSupermajority validators.card (runOfOne precommitOnce).activeCount = true ∧
      ∀ id ∈ validators, ((runOfOne precommitOnce).keyOf id).isSome = true ∧
        ∃ r, (runOfOne precommitOnce).Holds .preCommit v.height r id v.proposalId := by
  obtain ⟨v, hv, ht, hh, hp⟩ : ∃ v ∈ (runOfOne precommitOnce).castVotes,
      v.voteType = .commit ∧ v.height = 1 ∧ v.proposalId = 7 := by decide +kernel
  have hsingle : (runOfOne precommitOnce).SingleRound .preCommit 1 7 := by decide +kernel
  exact ⟨v, hv, ht, commit_backed_by_distinct_precommits (reached_runOfOne precommitOnce) hv ht
    (by rw [hh, hp]; exact hsingle)⟩

end SovereignNetwork.Engine
