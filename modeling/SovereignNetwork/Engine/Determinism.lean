import SovereignNetwork.Engine.Finality

/-!
# The quorum proof as a function of the commit votes

The vote pool is iterated in any order.
-/

namespace SovereignNetwork.Engine

open Lib Validators

variable {X : Externals} {manager : ValidatorManager} {s s' : EngineState} {pid : Hash}

/-- The engines are at the same height and hold the same commit votes for the proposal there. -/
def SameCommits (s s' : EngineState) (pid : Hash) : Prop :=
  s.height = s'.height ∧ ∀ e, e ∈ s.commitEntries pid ↔ e ∈ s'.commitEntries pid

/-- Commit votes of one voter for the proposal give one attestation, apart from those with a signature of another length. -/
def EngineState.OneAttestationEach (s : EngineState) (pid : Hash) : Prop :=
  ∀ e ∈ s.commitEntries pid, ∀ e' ∈ s.commitEntries pid, e.2.1.voter = e'.2.1.voter →
    e.2.1.attestation?.isSome → e'.2.1.attestation?.isSome → e.2.1.attestation? = e'.2.1.attestation?

theorem Reached.oneAttestationEach (hs : Reached X manager s) (hsingle : s.SingleRound .commit s.height pid) :
    s.OneAttestationEach pid := by
  intro e he e' he' hvoter _ _
  refine congrArg (·.2.1.attestation?) (List.inj_on_of_nodup_map (nodup_commitEntries hsingle) he he' ?_)
  obtain ⟨-, -, hl, -⟩ := mem_commitEntries.mp he
  obtain ⟨-, -, hl', -⟩ := mem_commitEntries.mp he'
  rw [← (hs.poolValid _ _ _ hl).key, ← (hs.poolValid _ _ _ hl').key]
  exact hvoter

theorem SameCommits.perm (h : SameCommits s s' pid) : (s.commitEntries pid).Perm (s'.commitEntries pid) := by
  have hnodup (s : EngineState) : (s.commitEntries pid).Nodup := s.votePool.nodupKeys.nodup.filter _
  exact (List.perm_ext_iff_of_nodup (hnodup s) (hnodup s')).mpr h.2

theorem voter_of_attestation? {vote : ConsensusVote} {att : CommitAttestation} (h : vote.attestation? = some att) :
    att.validatorId = vote.voter := by
  unfold ConsensusVote.attestation? at h
  split at h
  · cases h
    rfl
  · cases h

theorem commitAttestations_eq (s : EngineState) (pid : Hash) :
    s.commitAttestations pid =
      sortDedupBy CommitAttestation.validatorId ((s.commitEntries pid).filterMap fun e => e.2.1.attestation?) :=
  rfl

theorem SameCommits.commitAttestations_eq (h : SameCommits s s' pid) (hone : s.OneAttestationEach pid) :
    s.commitAttestations pid = s'.commitAttestations pid := by
  rw [Engine.commitAttestations_eq, Engine.commitAttestations_eq]
  refine sortDedupBy_of_perm (h.perm.filterMap _) fun a ha b hb hid => ?_
  obtain ⟨e, he, hea⟩ := List.mem_filterMap.mp ha
  obtain ⟨e', he', heb⟩ := List.mem_filterMap.mp hb
  rw [voter_of_attestation? hea, voter_of_attestation? heb] at hid
  have heq := hone e he e' he' hid (by rw [hea]; rfl) (by rw [heb]; rfl)
  rw [hea, heb] at heq
  exact Option.some.inj heq

/-- The engine with a pool that is iterated in another order. -/
def EngineState.iterating (s : EngineState) (entries : List (Σ _ : VotePoolKey, ConsensusVote × Hash))
    (h : entries.Perm s.votePool.entries) : EngineState :=
  { s with votePool := ⟨entries, (List.perm_nodupKeys h).mpr s.votePool.nodupKeys⟩ }

theorem sameCommits_iterating (s : EngineState) (pid : Hash) {entries : List (Σ _ : VotePoolKey, ConsensusVote × Hash)}
    (h : entries.Perm s.votePool.entries) : SameCommits s (s.iterating entries h) pid :=
  ⟨rfl, fun _ => (h.filter _).mem_iff.symm⟩

theorem exists_mem_commitAttestations {e : Σ _ : VotePoolKey, ConsensusVote × Hash} {att : CommitAttestation}
    (he : e ∈ s.commitEntries pid) (hatt : e.2.1.attestation? = some att) :
    ∃ s', SameCommits s s' pid ∧ att ∈ s'.commitAttestations pid := by
  obtain ⟨hmem, hfor⟩ := List.mem_filter.mp he
  refine ⟨s.iterating _ (List.perm_cons_erase hmem).symm, sameCommits_iterating s pid _, ?_⟩
  have hentries : (s.iterating _ (List.perm_cons_erase hmem).symm).commitEntries pid = e :: (s.votePool.entries.erase e).filter
      fun e => e.1.height == s.height && e.1.voteType == .commit && e.2.2 == pid :=
    List.filter_cons_of_pos hfor
  rw [commitAttestations_eq, hentries, List.filterMap_cons, hatt]
  exact mem_sortDedupBy_cons _ _ _

/-- Engines with the same commit votes name the same validators in the proof. The attestations and the root are the same
in every order of the votes exactly if the votes give one attestation for each validator. -/
theorem quorum_proof_deterministic (hashBlake3 : List UInt8 → Hash) (s : EngineState) (pid : Hash) :
    (∀ s', SameCommits s s' pid → (s.commitAttestations pid).map CommitAttestation.validatorId =
      (s'.commitAttestations pid).map CommitAttestation.validatorId) ∧
    ((∀ s', SameCommits s s' pid → s.commitAttestations pid = s'.commitAttestations pid ∧
      computeBftQuorumRoot hashBlake3 (s.quorumProof pid) = computeBftQuorumRoot hashBlake3 (s'.quorumProof pid)) ↔
    s.OneAttestationEach pid) := by
  refine ⟨fun s' h => map_sortDedupBy_of_perm (h.perm.filterMap _), fun h e he e' he' hvoter hsome hsome' => ?_,
    fun hone s' h => ?_⟩
  · obtain ⟨att, hatt⟩ := Option.isSome_iff_exists.mp hsome
    obtain ⟨att', hatt'⟩ := Option.isSome_iff_exists.mp hsome'
    -- each of the two is kept in some order, and all orders keep the same
    obtain ⟨s₁, hsame₁, hmem⟩ := exists_mem_commitAttestations he hatt
    obtain ⟨s₂, hsame₂, hmem'⟩ := exists_mem_commitAttestations he' hatt'
    rw [← (h s₁ hsame₁).1] at hmem
    rw [← (h s₂ hsame₂).1] at hmem'
    rw [hatt, hatt', eq_of_mem_sortDedupBy hmem hmem'
      ((voter_of_attestation? hatt).trans (hvoter.trans (voter_of_attestation? hatt').symm))]
  · have heq := h.commitAttestations_eq hone
    refine ⟨heq, ?_⟩
    rw [computeBftQuorumRoot, computeBftQuorumRoot, EngineState.quorumProof, EngineState.quorumProof, heq]

/-! ## Two orders of the same votes -/

def EngineState.reversed (s : EngineState) : EngineState := s.iterating _ (List.reverse_perm _)

def signatureByte (bytes : List UInt8) : Hash := BitVec.ofNat _ (bytes.getD 32 0).toNat

def commitOf (id round : Nat) : ConsensusVote :=
  { voteOf id .commit round 7 with
    signature := ⟨List.replicate 4595 (UInt8.ofNat round), BitVec.ofNat _ (10 + id)⟩ }

def commitOneEach : List Input :=
  [.start, .propose (proposalOf 2 0 7), .vote (commitOf 2 1), .vote (commitOf 3 0), .vote (commitOf 4 0)]

theorem quorum_root_of_one_each :
    (runOfOne commitOneEach).commitAttestations 7 = (runOfOne commitOneEach).reversed.commitAttestations 7 ∧
      computeBftQuorumRoot signatureByte ((runOfOne commitOneEach).quorumProof 7) =
        computeBftQuorumRoot signatureByte ((runOfOne commitOneEach).reversed.quorumProof 7) := by
  have hheight : (runOfOne commitOneEach).height = 1 := by decide +kernel
  have hsingle : (runOfOne commitOneEach).SingleRound .commit 1 7 := by decide +kernel
  have hone := (reached_runOfOne commitOneEach).oneAttestationEach (hheight ▸ hsingle)
  exact (quorum_proof_deterministic signatureByte _ 7).2.mpr hone _ (sameCommits_iterating _ 7 _)

def commitTwice : List Input :=
  [.start, .propose (proposalOf 2 0 7), .vote (commitOf 2 0), .vote (commitOf 2 1), .vote (commitOf 4 0)]

/-- The attestations and the root depend on which vote of validator 2 comes first. -/
theorem two_rounds_two_roots :
    SameCommits (runOfOne commitTwice) (runOfOne commitTwice).reversed 7 ∧
      ((runOfOne commitTwice).commitAttestations 7).map CommitAttestation.round ≠
        ((runOfOne commitTwice).reversed.commitAttestations 7).map CommitAttestation.round ∧
      computeBftQuorumRoot signatureByte ((runOfOne commitTwice).quorumProof 7) ≠
        computeBftQuorumRoot signatureByte ((runOfOne commitTwice).reversed.quorumProof 7) :=
  ⟨sameCommits_iterating _ 7 _, by decide +kernel⟩

end SovereignNetwork.Engine
