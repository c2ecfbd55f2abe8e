import SovereignNetwork.Oracle.Attestation

/-!
# The oracle in the chain

The part of the chain that the oracle works on: attestations with the slashing they cause, the removal of slashed
validators, and what a block does to the oracle.
-/

namespace SovereignNetwork.Oracle

open Lib

/-! ## Data -/

structure ValidatorInfo where
  stake : Nat
  consensusKey : DilithiumPk
  deriving DecidableEq

structure OracleSlashEvent where
  validatorKeyId : KeyId
  reason : OracleSlashReason
  epochId : Nat
  slashAmount : Nat
  slashedAtHeight : Nat
  committeeRemovalAtEpoch : Option Nat
  deriving DecidableEq

/-- The deprecated part of the pricing state that the oracle still writes. -/
structure TokenPricingState where
  cbeUsdPrice : Option Nat := none
  lastUpdated : Nat := 0
  deriving DecidableEq

structure OracleAttestationOutcome where
  epochId : Nat
  validatorPubkey : KeyId
  sovUsdPrice : Nat
  finalized : Bool
  deriving DecidableEq

/-- What an approved proposal asks of the oracle. The vote, the parameters and that new members are active validators are
checked by then. -/
inductive OracleUpdate
  | committee (newMembers : List KeyId) (activateAtEpoch : Nat) (proposalId : Bytes 32)
  | config (nextConfig : OracleConfig) (activateAtEpoch : Nat) (proposalId : Bytes 32)
  | protocolUpgrade (targetVersion : OracleProtocolVersion) (activateAtHeight : Nat) (proposalId : Bytes 32)
  | cancel (cancelCommitteeUpdate cancelConfigUpdate : Bool)

/-- The oracle part of a block: the validators it registers, the proposals approved with it, its attestations. -/
structure OracleBlock where
  height : Nat
  timestamp : Nat
  registrations : List (String × ValidatorInfo) := []
  updates : List OracleUpdate := []
  attestations : List OraclePriceAttestation := []

structure OracleChain where
  oracleState : OracleState := {}
  validatorRegistry : HashMap String ValidatorInfo := ∅
  slashFractionBps : Nat := 100
  oracleBannedValidators : Finset KeyId := ∅
  oracleSlashEvents : List OracleSlashEvent := []
  tokenPricingState : TokenPricingState := {}
  height : Nat := 0
  lastOracleEpochProcessed : Nat := 0

/-- Hashing, signatures, and the text of a rejection (its debug form). -/
structure OracleExternals where
  blake3Hash : DilithiumPk → KeyId
  verifySignature : VerifySignature
  describe : OracleAttestationAdmissionError → String

namespace OracleChain

/-! ## Slashing -/

def calculateSlash (c : OracleChain) (stake : Nat) : Nat :=
  wrapU64 (saturatingMulU128 stake c.slashFractionBps / 10000)

variable (X : OracleExternals)

/-- The registered validator with a key id, the first one that the registry lists. -/
def findValidator (c : OracleChain) (keyId : KeyId) : Option (String × ValidatorInfo) :=
  (c.validatorRegistry.entries.find? fun e => X.blake3Hash e.2.consensusKey = keyId).map fun e => (e.1, e.2)

/-- What is taken from the stake behind a key id, and the registry after it. -/
def slashStake (c : OracleChain) (keyId : KeyId) : Nat × HashMap String ValidatorInfo :=
  match c.findValidator X keyId with
  | some (id, v) =>
    let amount := c.calculateSlash v.stake
    (amount, HashMap.modify id (fun v => { v with stake := v.stake - amount }) c.validatorRegistry)
  | none => (0, c.validatorRegistry)

def slashOracleValidatorWithOptions (c : OracleChain) (keyId : KeyId) (reason : OracleSlashReason) (epochId : Nat)
    (alignedRemoval : Bool) : Nat × OracleChain :=
  let s := c.oracleState
  let removalEpoch := saturatingAddU64 epochId 1
  let event : OracleSlashEvent := {
    validatorKeyId := keyId
    reason := reason
    epochId := epochId
    slashAmount := (c.slashStake X keyId).1
    slashedAtHeight := c.height
    committeeRemovalAtEpoch := if alignedRemoval then some removalEpoch else none }
  (event.slashAmount, { c with
    oracleState :=
      if alignedRemoval then
        { s with committeeRemovalQueue := s.committeeRemovalQueue ++ [⟨keyId, removalEpoch, reason⟩] }
      else { s with committee := s.committee.removeMember keyId }
    validatorRegistry := (c.slashStake X keyId).2
    oracleBannedValidators := insert keyId c.oracleBannedValidators
    oracleSlashEvents := c.oracleSlashEvents ++ [event] })

def slashOracleValidator (c : OracleChain) (keyId : KeyId) (reason : OracleSlashReason) (epochId : Nat) :
    Nat × OracleChain :=
  c.slashOracleValidatorWithOptions X keyId reason epochId false

def applyPendingCommitteeRemovals (c : OracleChain) (currentEpoch : Nat) : OracleChain :=
  let s := c.oracleState
  let removed := s.committeeRemovalQueue.filter fun entry => entry.removeAtEpoch ≤ currentEpoch
  { c with oracleState := { s with
      committee := removed.foldl (fun committee entry => committee.removeMember entry.validatorKeyId) s.committee
      committeeRemovalQueue := s.committeeRemovalQueue.filter fun entry => ¬ entry.removeAtEpoch ≤ currentEpoch } }

/-! ## Attestations -/

/-- The key kept for the oracle, or else the consensus key of the validator. -/
def resolveSigningPubkey (c : OracleChain) : ResolvePubkey := fun keyId =>
  match (c.oracleState.oracleSigningPubkeys.lookup keyId).filter (· ≠ []) with
  | some pubkey => some pubkey
  | none => (c.findValidator X keyId).map fun v => v.2.consensusKey.asSlice

/-- A price that is finalized with a CBE price goes to the pricing state. -/
def recordFinalized (c : OracleChain) (blockTimestamp : Nat) : OracleAttestationAdmission → OracleChain
  | .finalized price =>
    match price.cbeUsdPrice with
    | some cbePrice => { c with tokenPricingState := ⟨some cbePrice, blockTimestamp⟩ }
    | none => c
  | _ => c

def applyOracleAttestation (c : OracleChain) (attestation : OraclePriceAttestation) (blockTimestamp : Nat) :
    Except String OracleAttestationOutcome × OracleChain :=
  let currentEpoch := c.oracleState.epochId blockTimestamp
  let (result, oracleState) :=
    c.oracleState.processAttestation X.verifySignature (c.resolveSigningPubkey X) attestation currentEpoch
  let c := { c with oracleState := oracleState }
  match result with
  | .ok admission =>
    (.ok {
      epochId := attestation.epochId
      validatorPubkey := attestation.validatorPubkey
      sovUsdPrice := attestation.sovUsdPrice
      finalized := match admission with
        | .finalized _ => true
        | _ => false }, c.recordFinalized blockTimestamp admission)
  | .error (.conflictingSigner _ _ _) =>
    (.error "Conflicting attestation detected - validator double-signed",
      (c.slashOracleValidator X attestation.validatorPubkey .conflictingAttestation attestation.epochId).2)
  | .error e => (.error s!"Attestation rejected: {X.describe e}", c)

/-! ## Blocks -/

/-- The block is the latest one by now, so that the current epoch is that of its timestamp. A proposal that fails
leaves the oracle as it is. -/
def applyUpdate (c : OracleChain) (blockTimestamp : Nat) (update : OracleUpdate) : OracleChain :=
  let s := c.oracleState
  let currentEpoch := s.epochId blockTimestamp
  match update with
  | .committee newMembers activateAtEpoch proposalId =>
    match s.scheduleCommitteeUpdate newMembers activateAtEpoch currentEpoch (some proposalId) with
    | .ok s => { c with oracleState := s }
    | .error _ => c
  | .config nextConfig activateAtEpoch proposalId =>
    match s.scheduleConfigUpdate nextConfig activateAtEpoch currentEpoch (some proposalId) with
    | .ok s => { c with oracleState := s }
    | .error _ => c
  | .protocolUpgrade targetVersion activateAtHeight proposalId =>
    match s.protocolConfig.scheduleActivation targetVersion activateAtHeight c.height (some proposalId) with
    | .ok protocolConfig => { c with oracleState := { s with protocolConfig := protocolConfig } }
    | .error _ => c
  | .cancel cancelCommitteeUpdate cancelConfigUpdate =>
    { c with oracleState := (s.cancelPendingUpdates cancelCommitteeUpdate cancelConfigUpdate).2 }

/-- The boundary of an epoch, when the block is the first one past it. -/
def advanceOracleEpoch (c : OracleChain) (blockTimestamp : Nat) : OracleChain :=
  if c.oracleState.shouldProcessEpoch blockTimestamp c.lastOracleEpochProcessed then
    let blockEpoch := c.oracleState.epochId blockTimestamp
    let c := { c with oracleState := c.oracleState.applyPendingUpdates blockEpoch }
    { c.applyPendingCommitteeRemovals blockEpoch with lastOracleEpochProcessed := blockTimestamp }
  else c

def processOracleAttestationTransactions (c : OracleChain) (attestations : List OraclePriceAttestation)
    (blockTimestamp : Nat) : OracleChain :=
  attestations.foldl (fun c attestation => (c.applyOracleAttestation X attestation blockTimestamp).2) c

def governBlock (c : OracleChain) (block : OracleBlock) : OracleChain :=
  let s := c.oracleState
  let c := { c with
    oracleState := { s with protocolConfig := s.protocolConfig.applyPendingActivation block.height }
    validatorRegistry := block.registrations.foldl (fun registry v => registry.insert v.1 v.2) c.validatorRegistry
    height := c.height + 1 }
  block.updates.foldl (fun c update => c.applyUpdate block.timestamp update) c

def processBlock (c : OracleChain) (block : OracleBlock) : OracleChain :=
  ((c.governBlock block).advanceOracleEpoch block.timestamp).processOracleAttestationTransactions X block.attestations
    block.timestamp

end OracleChain

end SovereignNetwork.Oracle
