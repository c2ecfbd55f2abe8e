import SovereignNetwork.QuorumProof.Lemmas.Accept

/-!
# Accountable finality

Two accepted proofs for different proposals of one height expose more than a third of the validators:
each of these signed a commit vote for both.
-/

namespace SovereignNetwork

open Lib

variable {verifySignature : SignatureVerifier} {validatorKeys : HashMap Hash DilithiumPk}

/-- The registered key of `validator` verifies a commit vote of `height` for `proposalId`. -/
def SignsCommit (verifySignature : SignatureVerifier) (validatorKeys : HashMap Hash DilithiumPk)
    (height : Nat) (proposalId validator : Hash) : Prop :=
  ∃ key, validatorKeys.lookup validator = some key ∧ ∃ voteId round, ∃ signature : SignatureBytes,
    verifySignature (voteEnvelope voteId validator proposalId 3 height round) signature.1 key = .ok true

def BftQuorumProof.signers (proof : BftQuorumProof) : Finset Hash :=
  (proof.attestations.map CommitAttestation.validatorId).toFinset

namespace BftQuorumProof.Sound

variable {proof : BftQuorumProof}

theorem card_signers (h : proof.Sound verifySignature validatorKeys) :
    proof.signers.card = proof.attestations.length := by
  rw [signers, List.toFinset_card_of_nodup h.distinct, List.length_map]

theorem signers_subset (h : proof.Sound verifySignature validatorKeys) :
    proof.signers ⊆ validatorKeys.keys.toFinset := by
  intro v hv
  obtain ⟨att, hatt, rfl⟩ := List.mem_map.mp (List.mem_toFinset.mp hv)
  have hreg := h.registered att hatt
  exact List.mem_toFinset.mpr (AList.mem_keys.mp (AList.lookup_isSome.mp (by rw [hreg]; rfl)))

theorem meetsRatio (h : proof.Sound verifySignature validatorKeys) :
    MeetsRatio bftSupermajorityBps 10000 proof.signers.card validatorKeys.keys.toFinset.card := by
  rw [h.card_signers, List.toFinset_card_of_nodup validatorKeys.keys_nodup]
  exact hasSupermajority_iff.mp h.quorum

theorem signsCommit {proposalId v : Hash} (h : proof.Sound verifySignature validatorKeys)
    (hids : ∀ att ∈ proof.attestations, att.proposalId = proposalId) (hv : v ∈ proof.signers) :
    SignsCommit verifySignature validatorKeys proof.height proposalId v := by
  obtain ⟨att, hatt, rfl⟩ := List.mem_map.mp (List.mem_toFinset.mp hv)
  have hsig := h.signed att hatt
  rw [BftQuorumProof.reconstructVoteEnvelope, hids att hatt] at hsig
  exact ⟨_, h.registered att hatt, _, _, _, hsig⟩

end BftQuorumProof.Sound

/-- More than a third of the registered validators signed commits for both proposals. -/
theorem conflicting_proofs_expose_third {height : Nat} {idA idB : Hash} {proofA proofB : BftQuorumProof}
    (hheightA : proofA.height = height) (hheightB : proofB.height = height)
    (hA : verifyQuorumProofForProposal verifySignature proofA idA validatorKeys = .ok ())
    (hB : verifyQuorumProofForProposal verifySignature proofB idB validatorKeys = .ok ()) :
    ∃ guilty : Finset Hash, guilty ⊆ validatorKeys.keys.toFinset ∧
      validatorKeys.keys.length < 3 * guilty.card ∧ ∀ v ∈ guilty,
        SignsCommit verifySignature validatorKeys height idA v ∧
          SignsCommit verifySignature validatorKeys height idB v := by
  obtain ⟨hidsA, hsA⟩ := verifyQuorumProofForProposal_ok hA
  obtain ⟨hidsB, hsB⟩ := verifyQuorumProofForProposal_ok hB
  have hlt := MeetsRatio.card_lt_three_mul_inter bftSupermajorityBps_gt hsA.signers_subset hsB.signers_subset
    hsA.meetsRatio hsB.meetsRatio
  rw [List.toFinset_card_of_nodup validatorKeys.keys_nodup] at hlt
  refine ⟨proofA.signers ∩ proofB.signers, ?_, hlt, ?_⟩
  · exact Finset.inter_subset_left.trans hsA.signers_subset
  · intro v hv
    obtain ⟨hvA, hvB⟩ := Finset.mem_inter.mp hv
    exact ⟨hheightA ▸ hsA.signsCommit hidsA hvA, hheightB ▸ hsB.signsCommit hidsB hvB⟩

def zeroSignedProof (proposalId : Hash) : BftQuorumProof where
  height := 5
  proposalId := proposalId
  totalValidators := 2
  attestations := [1, 2].map fun v => ⟨v, 9, proposalId, 0, ⟨List.replicate 4595 0, List.length_replicate⟩, 7⟩

def twoKeys : HashMap Hash DilithiumPk := AList.insert 1 7 (AList.singleton 2 7)

/-- Under a verifier that accepts everything, both validators of the set are exposed. -/
theorem conflicting_zeroSignedProofs_expose_third :
    ∃ guilty : Finset Hash, guilty ⊆ twoKeys.keys.toFinset ∧ twoKeys.keys.length < 3 * guilty.card ∧
      ∀ v ∈ guilty, SignsCommit (fun _ _ _ => .ok true) twoKeys 5 20 v ∧
        SignsCommit (fun _ _ _ => .ok true) twoKeys 5 30 v :=
  conflicting_proofs_expose_third (show (zeroSignedProof 20).height = 5 from rfl)
    (show (zeroSignedProof 30).height = 5 from rfl) (by decide +kernel) (by decide +kernel)

end SovereignNetwork
