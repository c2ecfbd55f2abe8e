import SovereignNetwork.Types

/-!
# Slashing and jail recovery

The recovery rules of `slashing/mod.rs` and the validator record of `validators/validator.rs`.
-/

namespace SovereignNetwork.Validators

inductive SlashType
  | doubleSign
  | liveness
  | invalidProposal
  | invalidVote
  deriving DecidableEq, Repr

inductive ValidatorStatus
  | active
  | inactive
  | slashed
  | jailed
  deriving DecidableEq, Repr

inductive BanReason
  | doubleSign
  | conflictingVote
  | equivocation
  | invalidBlock
  | longRangeAttack
  deriving DecidableEq, Repr

def BanReason.display : BanReason → String
  | .doubleSign => "DoubleSign"
  | .conflictingVote => "ConflictingVote"
  | .equivocation => "Equivocation"
  | .invalidBlock => "InvalidBlock"
  | .longRangeAttack => "LongRangeAttack"

inductive JailStatus
  | active
  | livenessJail (jailedAtBlock eligibleAtBlock : Nat)
  | permanentBan (bannedAtBlock : Nat) (reason : BanReason)
  deriving DecidableEq, Repr

namespace JailStatus

def isActive : JailStatus → Bool
  | .active => true
  | _ => false

def isPermanentlyBanned : JailStatus → Bool
  | .permanentBan _ _ => true
  | _ => false

def eligibleAtBlock? : JailStatus → Option Nat
  | .livenessJail _ eligibleAtBlock => some eligibleAtBlock
  | _ => none

end JailStatus

inductive RecoveryError
  | permanentBan (reason : BanReason)
  | jailPeriodNotExpired (eligibleAtBlock : Nat)
  | insufficientStake (remainingStake required : Nat)
  | notJailed
  | validatorNotFound
  deriving DecidableEq, Repr

def RecoveryError.display : RecoveryError → String
  | .permanentBan reason => "Permanent ban for " ++ reason.display ++ " — validator cannot unjail"
  | .jailPeriodNotExpired eligibleAtBlock =>
    "Jail period not expired; eligible to unjail at block " ++ toString eligibleAtBlock
  | .insufficientStake remainingStake required =>
    "Insufficient stake to unjail: " ++ toString remainingStake ++ " < " ++ toString required ++ " required"
  | .notJailed => "Validator is not jailed"
  | .validatorNotFound => "Validator not found"

def jailExitWaitBlocks : Nat := 1000

def minStakeToUnjail : Nat := 1000 * 1000000

def livenessJailStatus (jailedAtBlock : Nat) : JailStatus :=
  .livenessJail jailedAtBlock (saturatingAddU64 jailedAtBlock jailExitWaitBlocks)

def safetyBanStatus (bannedAtBlock : Nat) (reason : BanReason) : JailStatus :=
  .permanentBan bannedAtBlock reason

/-- The recovery rules: a ban is refused, a liveness jail needs the wait and the minimum stake. -/
def checkUnjailEligibility (jailStatus : JailStatus) (remainingStake currentBlock : Nat) :
    Except RecoveryError Unit :=
  match jailStatus with
  | .permanentBan _ reason => .error (.permanentBan reason)
  | .active => .error .notJailed
  | .livenessJail jailedAtBlock _ =>
    let computedEligible := saturatingAddU64 jailedAtBlock jailExitWaitBlocks
    if currentBlock < computedEligible then
      .error (.jailPeriodNotExpired computedEligible)
    else if remainingStake < minStakeToUnjail then
      .error (.insufficientStake remainingStake minStakeToUnjail)
    else
      .ok ()

/-! ## The validator record -/

structure Validator where
  identity : IdentityId
  stake : Nat
  storageProvided : Nat
  status : ValidatorStatus
  consensusKey : DilithiumPk
  networkingKey : List UInt8
  rewardsKey : List UInt8
  votingPower : Nat
  commissionRate : Nat
  reputation : Nat
  lastActivity : Nat
  slashCount : Nat
  jailUntil : Option Nat
  jailStatus : JailStatus
  deriving DecidableEq, Repr

/-- The voting power formula works on `f64`; nothing below depends on its value. -/
structure PowerFormula where
  calculateVotingPower : Nat → Nat → Nat

variable (F : PowerFormula)

namespace Validator

/-- A fresh validator. `now` is the wall clock the source reads. -/
def new (now : Nat) (identity : IdentityId) (stake storageProvided : Nat) (consensusKey : DilithiumPk)
    (networkingKey rewardsKey : List UInt8) (commissionRate : Nat) : Validator where
  identity := identity
  stake := stake
  storageProvided := storageProvided
  status := .active
  consensusKey := consensusKey
  networkingKey := networkingKey
  rewardsKey := rewardsKey
  votingPower := F.calculateVotingPower stake storageProvided
  commissionRate := commissionRate
  reputation := 100
  lastActivity := now
  slashCount := 0
  jailUntil := none
  jailStatus := .active

def updateVotingPower (v : Validator) : Validator :=
  { v with votingPower := F.calculateVotingPower v.stake v.storageProvided }

def canParticipate (v : Validator) : Bool :=
  match v.status with
  | .active => v.jailStatus.isActive
  | _ => false

def reputationPenalty : SlashType → Nat
  | .doubleSign => 20
  | .liveness => 5
  | .invalidProposal => 10
  | .invalidVote => 5

/-- The status fields after a slash: three offences ban, a liveness fault jails. -/
def applyRecoveryPolicy (slashType : SlashType) (currentBlock : Nat) (v : Validator) : Validator :=
  match slashType with
  | .doubleSign =>
    { v with status := .slashed, jailStatus := safetyBanStatus currentBlock .doubleSign, jailUntil := none }
  | .invalidProposal =>
    { v with status := .slashed, jailStatus := safetyBanStatus currentBlock .invalidBlock, jailUntil := none }
  | .invalidVote =>
    { v with status := .slashed, jailStatus := safetyBanStatus currentBlock .conflictingVote, jailUntil := none }
  | .liveness =>
    let jailStatus := livenessJailStatus currentBlock
    { v with status := .jailed, jailStatus := jailStatus, jailUntil := some (jailStatus.eligibleAtBlock?.getD 0) }

/-- Slashes the stake and applies the recovery policy; the first component is the slashed amount. -/
def slash (slashType : SlashType) (slashPercentage currentBlock : Nat) (v : Validator) : Nat × Validator :=
  let slashAmount := wrapU64 (v.stake * slashPercentage) / 100
  let v := { v with
    stake := v.stake - slashAmount
    slashCount := wrapU32 (v.slashCount + 1)
    reputation := v.reputation - reputationPenalty slashType }
  (slashAmount, (v.applyRecoveryPolicy slashType currentBlock).updateVotingPower F)

def unjail (currentBlock : Nat) (v : Validator) : Except RecoveryError Validator :=
  match checkUnjailEligibility v.jailStatus v.stake currentBlock with
  | .error e => .error e
  | .ok () => .ok { v with status := .active, jailStatus := .active, jailUntil := none }

def updateActivity (now : Nat) (v : Validator) : Validator := { v with lastActivity := now }

/-- Inactivity by the wall clock; the subtraction is the wrapping one of `u64`. -/
def isInactive (now maxInactiveSeconds : Nat) (v : Validator) : Bool :=
  decide (wrapU64 (now + 2 ^ 64 - v.lastActivity) > maxInactiveSeconds)

def addStake (amount : Nat) (v : Validator) : Validator :=
  { v with stake := wrapU64 (v.stake + amount) }.updateVotingPower F

def removeStake (amount : Nat) (v : Validator) : Except String Validator :=
  if amount > v.stake then
    .error "Cannot remove more stake than available"
  else if v.stake - amount < 1000 * 1000000 then
    .error "Cannot reduce stake below minimum requirement"
  else
    .ok ({ v with stake := v.stake - amount }.updateVotingPower F)

end Validator

end SovereignNetwork.Validators
