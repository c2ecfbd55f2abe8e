import SovereignNetwork.Lib.HashMap
import SovereignNetwork.Lib.Run
import SovereignNetwork.Validators.Slashing

/-!
# The validator manager

The registry of `validators/validator_manager.rs`. A fallible method returns its result together
with the manager it leaves behind.
-/

namespace SovereignNetwork.Validators

open Lib

structure ValidatorManager where
  validators : HashMap IdentityId Validator
  maxValidators : Nat
  minStake : Nat
  totalVotingPower : Nat
  developmentMode : Bool

variable (F : PowerFormula)

namespace ValidatorManager

def newWithDevelopmentMode (maxValidators minStake : Nat) (developmentMode : Bool) : ValidatorManager :=
  ⟨∅, maxValidators, minStake, 0, developmentMode⟩

/-- The checks of `register_validator`, in the order the source makes them. -/
def registrationError (m : ValidatorManager) (identity : IdentityId) (stake : Nat) (consensusKey : DilithiumPk)
    (networkingKey rewardsKey : List UInt8) : Option String :=
  if stake < m.minStake then
    some ("Insufficient stake: " ++ toString stake ++ " < " ++ toString m.minStake ++ " required")
  else if m.validators.keys.length ≥ m.maxValidators then
    some ("Maximum validator limit reached: " ++ toString m.maxValidators)
  else if identity ∈ m.validators then
    some "Validator already registered"
  else if consensusKey = 0 then
    some "consensus_key must not be all zeros"
  else if networkingKey = [] then
    some "networking_key must not be empty"
  else if rewardsKey = [] then
    some "rewards_key must not be empty"
  else if consensusKey.asSlice = networkingKey then
    some ("Key separation violation: consensus_key and networking_key must be different. " ++
      "Reusing the same key across roles collapses security domain boundaries.")
  else if consensusKey.asSlice = rewardsKey then
    some ("Key separation violation: consensus_key and rewards_key must be different. " ++
      "A compromised consensus key must not give an attacker control over staking rewards.")
  else if networkingKey = rewardsKey then
    some ("Key separation violation: networking_key and rewards_key must be different. " ++
      "A compromised network identity key must not give an attacker access to reward funds.")
  else
    none

def registerValidator (now : Nat) (identity : IdentityId) (stake storageProvided : Nat)
    (consensusKey : DilithiumPk) (networkingKey rewardsKey : List UInt8) (commissionRate : Nat)
    (m : ValidatorManager) : Except String Unit × ValidatorManager :=
  match m.registrationError identity stake consensusKey networkingKey rewardsKey with
  | some e => (.error e, m)
  | none =>
    let v := Validator.new F now identity stake storageProvided consensusKey networkingKey rewardsKey commissionRate
    (.ok (), { m with
      totalVotingPower := wrapU64 (m.totalVotingPower + v.votingPower)
      validators := m.validators.insert identity v })

def getValidator (m : ValidatorManager) (identity : IdentityId) : Option Validator :=
  m.validators.lookup identity

def getActiveValidators (m : ValidatorManager) : List Validator :=
  m.validators.values.filter Validator.canParticipate

def isValidator (m : ValidatorManager) (identity : IdentityId) : Bool :=
  match m.validators.lookup identity with
  | some v => v.status == .active
  | none => false

def updateValidatorActivity (now : Nat) (identity : IdentityId) (m : ValidatorManager) : ValidatorManager :=
  { m with validators := m.validators.modify identity (Validator.updateActivity now) }

def slashValidator (identity : IdentityId) (slashType : SlashType) (slashPercentage currentBlock : Nat)
    (m : ValidatorManager) : Except String Nat × ValidatorManager :=
  match m.validators.lookup identity with
  | some v =>
    let (slashedAmount, v') := v.slash F slashType slashPercentage currentBlock
    (.ok slashedAmount, { m with
      validators := m.validators.insert identity v'
      totalVotingPower := saturatingAddU64 (m.totalVotingPower - v.votingPower) v'.votingPower })
  | none => (.error "Validator not found for slashing", m)

/-- Slashes every active validator whose last activity is too old. -/
def processInactiveValidators (now maxInactiveSeconds currentBlock : Nat) (m : ValidatorManager) :
    Except String (List IdentityId) × ValidatorManager :=
  let faulty := fun v : Validator => v.isInactive now maxInactiveSeconds && v.status == .active
  let slashed := fun v : Validator => (v.slash F .liveness 1 currentBlock).2
  (.ok ((m.validators.entries.filter fun e => faulty e.2).map Sigma.fst), { m with
    validators := m.validators.mapValues fun v => if faulty v then slashed v else v
    totalVotingPower := m.validators.values.foldl (fun power v =>
      if faulty v then saturatingAddU64 (power - v.votingPower) (slashed v).votingPower else power)
      m.totalVotingPower })

def unjailValidator (identity : IdentityId) (currentBlock : Nat) (m : ValidatorManager) :
    Except String Unit × ValidatorManager :=
  match m.validators.lookup identity with
  | some v =>
    match v.unjail currentBlock with
    | .error e => (.error ("Failed to unjail validator: " ++ e.display), m)
    | .ok v' =>
      let validators : HashMap IdentityId Validator := m.validators.insert identity v'
      (.ok (), { m with
        validators := validators
        totalVotingPower := wrapU64
          ((validators.values.filter Validator.canParticipate).map Validator.votingPower).sum })
  | none => (.error "Validator not found for unjail", m)

end ValidatorManager

/-! ## Runs of the slashing and staking calls -/

inductive RecoveryCall
  | slashValidator (identity : IdentityId) (slashType : SlashType) (slashPercentage currentBlock : Nat)
  | processInactiveValidators (now maxInactiveSeconds currentBlock : Nat)
  | unjailValidator (identity : IdentityId) (currentBlock : Nat)
  | addStake (identity : IdentityId) (amount : Nat)
  | removeStake (identity : IdentityId) (amount : Nat)
  deriving DecidableEq, Repr

/-- The manager after one call, whether the call succeeds or not. `add_stake` and `remove_stake` are
calls on the validator that `get_validator_mut` returns. -/
def RecoveryCall.apply (m : ValidatorManager) : RecoveryCall → ValidatorManager
  | .slashValidator identity slashType slashPercentage currentBlock =>
    (m.slashValidator F identity slashType slashPercentage currentBlock).2
  | .processInactiveValidators now maxInactiveSeconds currentBlock =>
    (m.processInactiveValidators F now maxInactiveSeconds currentBlock).2
  | .unjailValidator identity currentBlock => (m.unjailValidator identity currentBlock).2
  | .addStake identity amount =>
    { m with validators := m.validators.modify identity fun v => v.addStake F amount }
  | .removeStake identity amount =>
    { m with validators := m.validators.modify identity fun v =>
        match v.removeStake F amount with
        | .ok v' => v'
        | .error _ => v }

end SovereignNetwork.Validators
