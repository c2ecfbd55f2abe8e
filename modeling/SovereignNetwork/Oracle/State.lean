import Mathlib.Data.Finset.Card
import Mathlib.Data.Finset.Dedup
import SovereignNetwork.Lib.Except
import SovereignNetwork.Lib.HashMap
import SovereignNetwork.Types

/-!
# State of the price oracle

The committee, its configuration, pending updates of both, the votes of each epoch and the finalized prices. A sorted
vector of members without repetition is a finite set, and so is a `BTreeSet`. Prices are `u128`, epochs and timestamps
`u64`.
-/

namespace SovereignNetwork.Oracle

open Lib

/-! ## Configuration -/

abbrev KeyId := Bytes 32

def oraclePriceScale : Nat := 100000000

def minEpochDurationSecs : Nat := 60

def maxEpochDurationSecs : Nat := 86400

def minSourceAgeSecs : Nat := 10

def maxDeviationBps : Nat := 10000

def maxPriceStalenessEpochs : Nat := 100

structure OracleConfig where
  epochDurationSecs : Nat := 300
  maxSourceAgeSecs : Nat := 60
  maxDeviationBps : Nat := 500
  maxPriceStalenessEpochs : Nat := 2
  priceScale : Nat := oraclePriceScale
  deriving DecidableEq

inductive OracleConfigError
  | invalidField (field message : String)
  | inconsistent (fields : List String) (message : String)
  deriving DecidableEq

namespace OracleConfig

def validate (config : OracleConfig) : Except OracleConfigError Unit := do
  if config.epochDurationSecs < minEpochDurationSecs then
    throw (.invalidField "epoch_duration_secs" s!"must be >= {minEpochDurationSecs} seconds")
  if config.epochDurationSecs > maxEpochDurationSecs then
    throw (.invalidField "epoch_duration_secs" s!"must be <= {maxEpochDurationSecs} seconds (24h)")
  if config.maxSourceAgeSecs = 0 then
    throw (.invalidField "max_source_age_secs" "must be > 0")
  if config.maxSourceAgeSecs < minSourceAgeSecs then
    throw (.invalidField "max_source_age_secs"
      s!"must be >= {minSourceAgeSecs} to give validators time to fetch prices")
  if config.maxDeviationBps = 0 then
    throw (.invalidField "max_deviation_bps" "must be > 0 (0 would reject all multi-source prices)")
  if config.maxDeviationBps > Oracle.maxDeviationBps then
    throw (.invalidField "max_deviation_bps"
      s!"must be <= {Oracle.maxDeviationBps} (100%) — higher values defeat price aggregation")
  if config.maxPriceStalenessEpochs = 0 then
    throw (.invalidField "max_price_staleness_epochs" "must be >= 1")
  if config.maxPriceStalenessEpochs > Oracle.maxPriceStalenessEpochs then
    throw (.invalidField "max_price_staleness_epochs" s!"must be <= {Oracle.maxPriceStalenessEpochs}")
  if config.priceScale ≠ oraclePriceScale then
    throw (.invalidField "price_scale" s!"must be {oraclePriceScale} (ORACLE_PRICE_SCALE)")
  if config.maxSourceAgeSecs ≥ config.epochDurationSecs then
    throw (.inconsistent ["max_source_age_secs", "epoch_duration_secs"]
      (s!"max_source_age_secs ({config.maxSourceAgeSecs}) must be < epoch_duration_secs " ++
        s!"({config.epochDurationSecs}) — otherwise sources are always considered stale"))

end OracleConfig

/-! ## Committee -/

structure PendingCommitteeUpdate where
  activateAtEpoch : Nat
  members : Finset KeyId
  scheduledAtEpoch : Nat
  expiresAtEpoch : Nat
  sourceProposalId : Option (Bytes 32)
  deriving DecidableEq

structure PendingConfigUpdate where
  activateAtEpoch : Nat
  config : OracleConfig
  scheduledAtEpoch : Nat
  expiresAtEpoch : Nat
  sourceProposalId : Option (Bytes 32)
  deriving DecidableEq

structure OracleCommitteeState where
  members : Finset KeyId := ∅
  pendingUpdate : Option PendingCommitteeUpdate := none
  deriving DecidableEq

namespace OracleCommitteeState

def removeMember (c : OracleCommitteeState) (keyId : KeyId) : OracleCommitteeState :=
  { c with members := c.members.erase keyId }

/-- `floor(2N/3) + 1`, at most what a `u16` holds. -/
def threshold (c : OracleCommitteeState) : Nat := min (2 * c.members.card / 3 + 1) (2 ^ 16 - 1)

end OracleCommitteeState

/-! ## Votes and prices -/

structure FinalizedOraclePrice where
  epochId : Nat
  sovUsdPrice : Nat
  cbeUsdPrice : Option Nat
  deriving DecidableEq

/-- The votes of an epoch, by price and by signer. -/
structure OracleEpochState where
  winningPrice : Option Nat := none
  winningCbePrice : Option Nat := none
  finalized : Bool := false
  priceSigners : HashMap Nat (Finset KeyId) := ∅
  cbePriceSigners : HashMap Nat (Finset KeyId) := ∅
  signerPrices : HashMap KeyId Nat := ∅
  signerCbePrices : HashMap KeyId Nat := ∅

/-! ## Protocol version -/

inductive OracleProtocolVersion
  | v0Legacy
  | v1StrictSpec
  deriving DecidableEq

def OracleProtocolVersion.asU16 : OracleProtocolVersion → Nat
  | .v0Legacy => 0
  | .v1StrictSpec => 1

structure PendingProtocolActivation where
  activateAtHeight : Nat
  targetVersion : OracleProtocolVersion
  scheduledAtHeight : Nat
  sourceProposalId : Option (Bytes 32)
  deriving DecidableEq

structure OracleProtocolConfig where
  currentVersion : OracleProtocolVersion := .v0Legacy
  pendingActivation : Option PendingProtocolActivation := none
  deriving DecidableEq

inductive ProtocolScheduleError
  | invalidActivationHeight (activateAtHeight currentHeight : Nat)
  | insufficientLeadTime (activateAtHeight currentHeight minLeadBlocks : Nat)
  | downgradeNotAllowed (current requested : Nat)
  | alreadyActive
  | alreadyScheduled (existingHeight : Nat)
  deriving DecidableEq

def minProtocolActivationLeadBlocks : Nat := 100

namespace OracleProtocolConfig

def isStrictSpecActive (c : OracleProtocolConfig) : Bool := c.currentVersion = .v1StrictSpec

def scheduleActivation (c : OracleProtocolConfig) (targetVersion : OracleProtocolVersion)
    (activateAtHeight currentHeight : Nat) (sourceProposalId : Option (Bytes 32)) :
    Except ProtocolScheduleError OracleProtocolConfig := do
  if activateAtHeight ≤ currentHeight then
    throw (.invalidActivationHeight activateAtHeight currentHeight)
  if activateAtHeight < saturatingAddU64 currentHeight minProtocolActivationLeadBlocks then
    throw (.insufficientLeadTime activateAtHeight currentHeight minProtocolActivationLeadBlocks)
  if targetVersion.asU16 < c.currentVersion.asU16 then
    throw (.downgradeNotAllowed c.currentVersion.asU16 targetVersion.asU16)
  if targetVersion = c.currentVersion then
    throw .alreadyActive
  match c.pendingActivation with
  | some pending => throw (.alreadyScheduled pending.activateAtHeight)
  | none =>
    return { c with pendingActivation := some {
      activateAtHeight := activateAtHeight
      targetVersion := targetVersion
      scheduledAtHeight := currentHeight
      sourceProposalId := sourceProposalId } }

def applyPendingActivation (c : OracleProtocolConfig) (currentHeight : Nat) : OracleProtocolConfig :=
  match c.pendingActivation with
  | some pending =>
    if currentHeight ≥ pending.activateAtHeight then
      { currentVersion := pending.targetVersion, pendingActivation := none }
    else c
  | none => c

end OracleProtocolConfig

/-! ## The state -/

inductive OracleSlashReason
  | conflictingAttestation
  | wrongEpoch
  | deviationBand
  deriving DecidableEq

structure CommitteeRemovalEntry where
  validatorKeyId : KeyId
  removeAtEpoch : Nat
  reason : OracleSlashReason
  deriving DecidableEq

structure OracleState where
  config : OracleConfig := {}
  committee : OracleCommitteeState := {}
  pendingConfigUpdate : Option PendingConfigUpdate := none
  finalizedPrices : HashMap Nat FinalizedOraclePrice := ∅
  epochState : HashMap Nat OracleEpochState := ∅
  oracleSigningPubkeys : HashMap KeyId (List UInt8) := ∅
  protocolConfig : OracleProtocolConfig := {}
  committeeRemovalQueue : List CommitteeRemovalEntry := []

namespace OracleState

def epochId (s : OracleState) (blockTimestamp : Nat) : Nat := blockTimestamp / max s.config.epochDurationSecs 1

/-! ## Pending updates -/

def scheduleCommitteeUpdate (s : OracleState) (members : List KeyId) (activateAtEpoch currentEpoch : Nat)
    (sourceProposalId : Option (Bytes 32)) : Except String OracleState := do
  if members = [] then
    throw "oracle committee must not be empty"
  if members.toFinset.card ≠ members.length then
    throw "oracle committee must not contain duplicate members"
  if activateAtEpoch ≤ currentEpoch then
    throw "activate_at_epoch must be > current_epoch"
  return { s with committee := { s.committee with pendingUpdate := some {
    activateAtEpoch := activateAtEpoch
    members := members.toFinset
    scheduledAtEpoch := currentEpoch
    expiresAtEpoch := saturatingAddU64 activateAtEpoch 2
    sourceProposalId := sourceProposalId } } }

def scheduleConfigUpdate (s : OracleState) (config : OracleConfig) (activateAtEpoch currentEpoch : Nat)
    (sourceProposalId : Option (Bytes 32)) : Except OracleConfigError OracleState := do
  config.validate
  if activateAtEpoch ≤ currentEpoch then
    throw (.invalidField "activate_at_epoch" "must be > current_epoch")
  return { s with pendingConfigUpdate := some {
    activateAtEpoch := activateAtEpoch
    config := config
    scheduledAtEpoch := currentEpoch
    expiresAtEpoch := saturatingAddU64 activateAtEpoch 2
    sourceProposalId := sourceProposalId } }

/-- What becomes of a pending update at an epoch. -/
inductive Due
  | expired
  | active
  | pending
  deriving DecidableEq

def due (activateAtEpoch expiresAtEpoch currentEpoch : Nat) : Due :=
  if currentEpoch ≥ expiresAtEpoch then .expired
  else if currentEpoch ≥ activateAtEpoch then .active
  else .pending

def applyPendingCommitteeUpdate (c : OracleCommitteeState) (currentEpoch : Nat) : OracleCommitteeState :=
  match c.pendingUpdate with
  | none => c
  | some pending =>
    match due pending.activateAtEpoch pending.expiresAtEpoch currentEpoch with
    | .expired => { c with pendingUpdate := none }
    | .active => { members := pending.members, pendingUpdate := none }
    | .pending => c

def applyPendingConfigUpdate (s : OracleState) (currentEpoch : Nat) : OracleState :=
  match s.pendingConfigUpdate with
  | none => s
  | some pending =>
    match due pending.activateAtEpoch pending.expiresAtEpoch currentEpoch with
    | .expired => { s with pendingConfigUpdate := none }
    | .active => { s with config := pending.config, pendingConfigUpdate := none }
    | .pending => s

def applyPendingUpdates (s : OracleState) (currentEpoch : Nat) : OracleState :=
  applyPendingConfigUpdate { s with committee := applyPendingCommitteeUpdate s.committee currentEpoch } currentEpoch

/-- Says whether anything was cancelled. -/
def cancelPendingUpdates (s : OracleState) (cancelCommittee cancelConfig : Bool) : Bool × OracleState :=
  let committee := cancelCommittee && s.committee.pendingUpdate.isSome
  let config := cancelConfig && s.pendingConfigUpdate.isSome
  (committee || config,
    { s with
      committee := if committee then { s.committee with pendingUpdate := none } else s.committee
      pendingConfigUpdate := if config then none else s.pendingConfigUpdate })

def shouldProcessEpoch (s : OracleState) (blockTimestamp lastTimestampProcessed : Nat) : Bool :=
  s.epochId lastTimestampProcessed < s.epochId blockTimestamp

end OracleState

end SovereignNetwork.Oracle
