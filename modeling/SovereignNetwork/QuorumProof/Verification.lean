import SovereignNetwork.Lib.HashMap
import SovereignNetwork.QuorumProof.Types

/-!
# Verification of quorum proofs

The functions of `block/verification.rs`. The signature scheme is a parameter.
-/

namespace SovereignNetwork

open Lib

/-- The signature check of the crypto library: message, signature and public key to a verdict. -/
abbrev SignatureVerifier := List UInt8 → List UInt8 → DilithiumPk → Except String Bool

/-- The first eight bytes of a hash, as error texts show it. -/
def shortHex (h : Hash) : String := hexEncode (h.asSlice.take 8)

/-- The loop that compares each attestation's proposal with the expected one. -/
def checkProposalIds (expectedProposalId : Hash) : Nat → List CommitAttestation → Except String Unit
  | _, [] => .ok ()
  | i, att :: atts =>
    if att.proposalId ≠ expectedProposalId then
      .error ("attestation " ++ toString i ++ " has mismatched proposal_id: expected " ++
        shortHex expectedProposalId ++ ", got " ++ shortHex att.proposalId ++
        ". Proof contains attestations for different proposals.")
    else
      checkProposalIds expectedProposalId (i + 1) atts

/-- Phase 1: no repeated validator, each known, each with its registered key. -/
def checkAttestations (validatorKeys : HashMap Hash DilithiumPk) :
    List Hash → List CommitAttestation → Except String Unit
  | _, [] => .ok ()
  | seen, att :: atts =>
    if att.validatorId ∈ seen then
      .error ("duplicate attestation from validator " ++ shortHex att.validatorId)
    else
      match validatorKeys.lookup att.validatorId with
      | none => .error ("unknown validator " ++ shortHex att.validatorId ++ " in quorum proof")
      | some registeredKey =>
        if att.publicKey ≠ registeredKey then
          .error ("public key mismatch for validator " ++ shortHex att.validatorId)
        else
          checkAttestations validatorKeys (att.validatorId :: seen) atts

/-- Phase 2: every signature verifies; the result is the number of attestations. -/
def countValidSignatures (verifySignature : SignatureVerifier) (height : Nat) :
    Nat → List CommitAttestation → Except String Nat
  | validCount, [] => .ok validCount
  | validCount, att :: atts =>
    match verifySignature (BftQuorumProof.reconstructVoteEnvelope att height) att.signature.1 att.publicKey with
    | .ok true => countValidSignatures verifySignature height (validCount + 1) atts
    | .ok false => .error ("invalid signature from validator " ++ shortHex att.validatorId)
    | .error e => .error ("signature verification error for validator " ++ shortHex att.validatorId ++ ": " ++ e)

def verifyQuorumProof (verifySignature : SignatureVerifier) (proof : BftQuorumProof)
    (validatorKeys : HashMap Hash DilithiumPk) : Except String Unit := do
  let localValidatorCount := validatorKeys.keys.length
  if localValidatorCount = 0 then
    throw "local validator set is empty"
  if proof.totalValidators ≠ localValidatorCount then
    throw ("validator set size mismatch: proof claims " ++ toString proof.totalValidators ++
      " validators, local set has " ++ toString localValidatorCount ++
      ". Peer may be on different fork or proof is forged")
  let n := localValidatorCount
  if !hasSupermajority proof.attestations.length n then
    throw ("insufficient attestations: " ++ toString proof.attestations.length ++ " / " ++ toString n ++
      " does not meet supermajority")
  checkAttestations validatorKeys [] proof.attestations
  let validCount ← countValidSignatures verifySignature proof.height 0 proof.attestations
  if hasSupermajority validCount n then
    pure ()
  else
    throw ("only " ++ toString validCount ++ " valid attestations out of " ++ toString n ++
      " — does not meet supermajority")

def verifyQuorumProofForProposal (verifySignature : SignatureVerifier) (proof : BftQuorumProof)
    (expectedProposalId : Hash) (validatorKeys : HashMap Hash DilithiumPk) : Except String Unit := do
  if proof.proposalId ≠ expectedProposalId then
    throw ("proposal ID mismatch: proof attests to " ++ shortHex proof.proposalId ++ ", expected " ++
      shortHex expectedProposalId ++ ". This may be a replay attack with a proof for a different block.")
  checkProposalIds expectedProposalId 0 proof.attestations
  verifyQuorumProof verifySignature proof validatorKeys

end SovereignNetwork
