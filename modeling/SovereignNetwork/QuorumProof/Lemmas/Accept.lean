import SovereignNetwork.Lib.Except
import SovereignNetwork.QuorumProof.Verification

/-!
# What an accepted quorum proof contains
-/

namespace SovereignNetwork

open Lib

variable {verifySignature : SignatureVerifier} {validatorKeys : HashMap Hash DilithiumPk}

theorem checkProposalIds_ok_iff {expected : Hash} {i atts} :
    checkProposalIds expected i atts = .ok () ↔ ∀ att ∈ atts, att.proposalId = expected := by
  induction atts generalizing i with
  | nil => simp [checkProposalIds]
  | cons att atts ih =>
    by_cases h : att.proposalId = expected
    · simp [checkProposalIds, h, ih]
    · simp [checkProposalIds, h]

theorem checkAttestations_ok_iff {seen atts} :
    checkAttestations validatorKeys seen atts = .ok () ↔
      (atts.map CommitAttestation.validatorId).Nodup ∧ (∀ att ∈ atts, att.validatorId ∉ seen) ∧
        ∀ att ∈ atts, validatorKeys.lookup att.validatorId = some att.publicKey := by
  induction atts generalizing seen with
  | nil => simp [checkAttestations]
  | cons att atts ih =>
    unfold checkAttestations
    by_cases hseen : att.validatorId ∈ seen
    · simp [hseen]
    · cases hk : validatorKeys.lookup att.validatorId with
      | none => simp [hseen, hk]
      | some key =>
        by_cases hkey : att.publicKey = key
        · subst hkey
          simp only [hseen, not_true_eq_false, ne_eq, if_false, ih, List.map_cons, List.nodup_cons,
            List.mem_map, not_exists, not_and, List.mem_cons, not_or, forall_eq_or_imp, hk,
            not_false_eq_true, true_and]
          constructor
          · rintro ⟨hnd, hns, hreg⟩
            exact ⟨⟨fun a ha => (hns a ha).1, hnd⟩, fun a ha => (hns a ha).2, hreg⟩
          · rintro ⟨⟨hne, hnd⟩, hns, hreg⟩
            exact ⟨hnd, fun a ha => ⟨hne a ha, hns a ha⟩, hreg⟩
        · have hkey' : key ≠ att.publicKey := fun h => hkey h.symm
          simp [hseen, hk, hkey, hkey']

theorem countValidSignatures_ok_iff {height c k atts} :
    countValidSignatures verifySignature height c atts = .ok k ↔
      k = c + atts.length ∧ ∀ att ∈ atts,
        verifySignature (BftQuorumProof.reconstructVoteEnvelope att height) att.signature.1 att.publicKey = .ok true := by
  induction atts generalizing c with
  | nil => simp [countValidSignatures, eq_comm]
  | cons att atts ih =>
    unfold countValidSignatures
    cases hv : verifySignature (BftQuorumProof.reconstructVoteEnvelope att height) att.signature.1 att.publicKey with
    | error e => simp [hv]
    | ok b =>
      cases b with
      | false => simp [hv]
      | true =>
        simp only [ih, List.length_cons, List.mem_cons, forall_eq_or_imp, hv, true_and]
        rw [show c + 1 + atts.length = c + (atts.length + 1) by omega]

/-- The proof names a supermajority of distinct registered validators, each with a verifying signature. -/
structure BftQuorumProof.Sound (verifySignature : SignatureVerifier) (validatorKeys : HashMap Hash DilithiumPk)
    (proof : BftQuorumProof) : Prop where
  total : proof.totalValidators = validatorKeys.keys.length
  quorum : hasSupermajority proof.attestations.length validatorKeys.keys.length = true
  distinct : (proof.attestations.map CommitAttestation.validatorId).Nodup
  registered : ∀ att ∈ proof.attestations, validatorKeys.lookup att.validatorId = some att.publicKey
  signed : ∀ att ∈ proof.attestations,
    verifySignature (BftQuorumProof.reconstructVoteEnvelope att proof.height) att.signature.1 att.publicKey = .ok true

theorem verifyQuorumProof_ok_iff {proof : BftQuorumProof} :
    verifyQuorumProof verifySignature proof validatorKeys = .ok () ↔ proof.Sound verifySignature validatorKeys := by
  simp only [verifyQuorumProof, guard_eq_ok, bind_eq_ok, countValidSignatures_ok_iff, Nat.zero_add]
  constructor
  · rintro ⟨-, htotal, hquorum, _, hatts, k, ⟨-, hsig⟩, -⟩
    obtain ⟨hnd, -, hreg⟩ := checkAttestations_ok_iff.mp hatts
    exact ⟨not_not.mp htotal, by simpa using hquorum, hnd, hreg, hsig⟩
  · intro h
    have hpos := (hasSupermajority_iff.mp h.quorum).1
    have hatts := checkAttestations_ok_iff.mpr ⟨h.distinct, fun _ _ => List.not_mem_nil, h.registered⟩
    exact ⟨hpos, not_not.mpr h.total, by simp [h.quorum], (), hatts, _, ⟨rfl, h.signed⟩, by simp [h.quorum, pure_eq_ok]⟩

theorem verifyQuorumProofForProposal_ok {proof : BftQuorumProof} {expected : Hash}
    (h : verifyQuorumProofForProposal verifySignature proof expected validatorKeys = .ok ()) :
    (∀ att ∈ proof.attestations, att.proposalId = expected) ∧ proof.Sound verifySignature validatorKeys := by
  simp only [verifyQuorumProofForProposal, guard_eq_ok, bind_eq_ok] at h
  obtain ⟨-, _, hids, hproof⟩ := h
  exact ⟨checkProposalIds_ok_iff.mp hids, verifyQuorumProof_ok_iff.mp hproof⟩

end SovereignNetwork
