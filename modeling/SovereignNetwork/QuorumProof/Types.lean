import SovereignNetwork.Lib.Quorum
import SovereignNetwork.Lib.SortedKeys
import SovereignNetwork.Types

/-!
# Thresholds and BFT quorum proofs

The consensus primitives of `lib-types/src/consensus.rs`.
-/

namespace SovereignNetwork

open Lib

def bftSupermajorityBps : Nat := 6667

def meetsThreshold (numerator denominator thresholdBps : Nat) : Bool :=
  if denominator = 0 then false else decide (numerator * 10000 ≥ denominator * thresholdBps)

def hasSupermajority (matchingVotes totalValidators : Nat) : Bool :=
  meetsThreshold matchingVotes totalValidators bftSupermajorityBps

theorem hasSupermajority_iff {k n : Nat} :
    hasSupermajority k n = true ↔ MeetsRatio bftSupermajorityBps 10000 k n := by
  unfold hasSupermajority meetsThreshold MeetsRatio
  by_cases h : n = 0
  · simp [h]
  · simp [h]

theorem hasSupermajority_mono {k k' n : Nat} (h : hasSupermajority k n = true) (hk : k ≤ k') :
    hasSupermajority k' n = true :=
  hasSupermajority_iff.mpr ((hasSupermajority_iff.mp h).mono hk)

theorem bftSupermajorityBps_gt : 2 * 10000 < 3 * bftSupermajorityBps := by decide

/-- A Dilithium5 signature `[u8; 4595]`. -/
abbrev SignatureBytes := { bytes : List UInt8 // bytes.length = 4595 }

structure CommitAttestation where
  validatorId : Hash
  voteId : Hash
  proposalId : Hash
  round : Nat
  signature : SignatureBytes
  publicKey : DilithiumPk

structure BftQuorumProof where
  height : Nat
  proposalId : Hash
  totalValidators : Nat
  attestations : List CommitAttestation

/-- The bytes a vote signature covers, for the vote type with byte `voteType`. -/
def voteEnvelope (voteId voter proposalId : Hash) (voteType : UInt8) (height round : Nat) : List UInt8 :=
  voteId.asSlice ++ voter.asSlice ++ proposalId.asSlice ++ [voteType] ++ toLeBytes 8 height ++ toLeBytes 4 round

def BftQuorumProof.reconstructVoteEnvelope (attestation : CommitAttestation) (height : Nat) : List UInt8 :=
  voteEnvelope attestation.voteId attestation.validatorId attestation.proposalId 3 height attestation.round

/-- The root that the block header commits to; `hashBlake3` is taken as given. -/
def computeBftQuorumRoot (hashBlake3 : List UInt8 → Hash) (proof : BftQuorumProof) : Hash :=
  hashBlake3 <| (sortDedupBy CommitAttestation.validatorId proof.attestations).flatMap fun att =>
    att.validatorId.asSlice ++ att.signature.1 ++ att.proposalId.asSlice

end SovereignNetwork
