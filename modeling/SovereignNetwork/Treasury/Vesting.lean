import Mathlib.Data.List.MinMax
import Mathlib.Data.Prod.Lex
import SovereignNetwork.Treasury.Kernel

/-!
# Vesting

Schedules, locks, and the calls of the kernel that release a lock and revoke one. Amounts and epochs are `u64`. A call that
fails may have written before: each returns its result together with the token and the vesting state it leaves.
-/

namespace SovereignNetwork.Execution

open Lib

/-! ## Accounts by key id -/

/-- The order of keys of one id. -/
def PublicKey.rank (key : PublicKey) : Nat ×ₗ Nat := toLex (key.dilithiumPk.toNat, key.kyberPk.toNat)

/-- The first key with the id, in the order of a `BTreeMap`. -/
def findByKeyId (keys : List PublicKey) (keyId : Bytes 32) : Option PublicKey :=
  (keys.filter (·.keyId = keyId)).argmin PublicKey.rank

namespace TokenContract

def findBalanceByKeyId (c : TokenContract) (keyId : Bytes 32) : Option PublicKey := findByKeyId c.balances.keys keyId

def findLockedBalanceByKeyId (c : TokenContract) (keyId : Bytes 32) : Option PublicKey :=
  findByKeyId c.lockedBalances.keys keyId

end TokenContract

end SovereignNetwork.Execution

namespace SovereignNetwork.Treasury

open Lib
open Execution (PublicKey TokenContract)

/-! ## Schedules -/

abbrev VestingId := Bytes 32

structure VestingSchedule where
  startEpoch : Nat
  cliffEpoch : Nat
  endEpoch : Nat
  totalAmount : Nat
  deriving DecidableEq

namespace VestingSchedule

def vestedAmount (s : VestingSchedule) (currentEpoch : Nat) : Nat :=
  if currentEpoch < s.startEpoch then 0
  else if s.endEpoch ≤ currentEpoch then s.totalAmount
  else
    let elapsed := currentEpoch - s.startEpoch
    let duration := s.endEpoch - s.startEpoch
    if duration = 0 then s.totalAmount
    else wrapU64 (saturatingMulU128 s.totalAmount elapsed / duration)

def releasableAmount (s : VestingSchedule) (currentEpoch : Nat) : Nat :=
  if currentEpoch < s.cliffEpoch then 0 else s.vestedAmount currentEpoch

end VestingSchedule

/-! ## Locks -/

inductive VestingStatus
  | pending
  | beforeCliff
  | active
  | completed
  | revoked
  deriving DecidableEq

structure VestingLock where
  id : VestingId
  beneficiary : Bytes 32
  schedule : VestingSchedule
  amountReleased : Nat
  createdEpoch : Nat
  revocable : Bool
  revokedEpoch : Option Nat
  deriving DecidableEq

namespace VestingLock

def status (l : VestingLock) (currentEpoch : Nat) : VestingStatus :=
  if l.revokedEpoch.isSome then .revoked
  else if l.schedule.totalAmount ≤ l.amountReleased then .completed
  else if currentEpoch < l.schedule.startEpoch then .pending
  else if currentEpoch < l.schedule.cliffEpoch then .beforeCliff
  else .active

def availableToRelease (l : VestingLock) (currentEpoch : Nat) : Nat :=
  let effectiveEpoch := match l.revokedEpoch with
    | some revoked => min revoked currentEpoch
    | none => currentEpoch
  l.schedule.releasableAmount effectiveEpoch - l.amountReleased

def recordRelease (l : VestingLock) (amount : Nat) : Except String VestingLock := do
  let newTotal ← okOr (checkedAddU64 l.amountReleased amount) "Release amount overflow"
  if newTotal > l.schedule.totalAmount then
    throw "Would exceed total vesting amount"
  return { l with amountReleased := newTotal }

def remainingLocked (l : VestingLock) : Nat := l.schedule.totalAmount - l.amountReleased

/-- What is to be returned, and the lock. -/
def revoke (l : VestingLock) (currentEpoch : Nat) : Except String (Nat × VestingLock) := do
  if !l.revocable then
    throw "Vesting lock is not revocable"
  if l.revokedEpoch.isSome then
    throw "Vesting lock already revoked"
  let vested := l.schedule.vestedAmount currentEpoch
  let unvested := l.schedule.totalAmount - vested
  let vestedUnreleased := vested - l.amountReleased
  let returnable := l.remainingLocked - vestedUnreleased
  return (min returnable unvested, { l with revokedEpoch := some currentEpoch })

end VestingLock

/-! ## The vesting state -/

structure VestingState where
  locks : HashMap VestingId VestingLock := ∅
  totalLocked : Nat := 0

namespace VestingState

def recordRelease (v : VestingState) (amount : Nat) : VestingState := { v with totalLocked := v.totalLocked - amount }

end VestingState

/-! ## Calls of the kernel -/

namespace TreasuryKernel

/-- A balance is preferred to a locked balance, and that to the bare id. -/
def findBeneficiaryKey (token : TokenContract) (keyId : Bytes 32) : PublicKey :=
  ((token.findBalanceByKeyId keyId).or (token.findLockedBalanceByKeyId keyId)).getD (PublicKey.ofKeyId keyId)

/-- What the lock releases. A revoked lock still releases what was vested before. -/
def checkAvailable (lock : VestingLock) (currentEpoch : Nat) : Except KernelOpError Nat :=
  match lock.status currentEpoch with
  | .pending => throw .vestingNotStarted
  | .beforeCliff => throw .vestingCliffNotReached
  | .completed => throw .vestingAlreadyFullyReleased
  | .revoked | .active =>
    let available := lock.availableToRelease currentEpoch
    if available = 0 then throw .vestingAlreadyFullyReleased else pure available

/-- The beneficiary is known by the id only. -/
def checkBeneficiary (k : TreasuryKernel) (caller : PublicKey) (lock : VestingLock) : Except KernelOpError Unit :=
  if caller.keyId = lock.beneficiary then pure () else k.verifyCaller caller

/-- The checks of a release: the lock and what it releases. -/
def checkRelease (k : TreasuryKernel) (caller : PublicKey) (vestingId : VestingId) (currentEpoch : Nat)
    (vesting : VestingState) : Except KernelOpError (VestingLock × Nat) := do
  let lock ← okOr (vesting.locks.lookup vestingId) .vestingNotFound
  k.checkBeneficiary caller lock
  let available ← checkAvailable lock currentEpoch
  return (lock, available)

def releaseVested (k : TreasuryKernel) (token : TokenContract) (caller : PublicKey) (vestingId : VestingId)
    (currentEpoch : Nat) (vesting : VestingState) : Except KernelOpError Nat × TokenContract × VestingState :=
  match k.checkRelease caller vestingId currentEpoch vesting with
  | .error e => (.error e, token, vesting)
  | .ok (lock, available) =>
    let beneficiaryPk := findBeneficiaryKey token lock.beneficiary
    match k.release token k.kernelAddress beneficiaryPk available .vestingRelease with
    | .error e => (.error e, token, vesting)
    | .ok token =>
      match lock.recordRelease available with
      | .error _ => (.error .overflow, token, vesting)
      | .ok lock =>
        let vesting := { vesting with locks := vesting.locks.insert vestingId lock }
        (.ok available, token, vesting.recordRelease available)

/-- The lock is revoked before the tokens move, and stays revoked when they cannot. -/
def revokeVesting (k : TreasuryKernel) (token : TokenContract) (caller : PublicKey) (vestingId : VestingId)
    (returnTo : PublicKey) (currentEpoch : Nat) (vesting : VestingState) :
    Except KernelOpError Nat × TokenContract × VestingState :=
  if caller ≠ k.governanceAuthority then (.error .unauthorized, token, vesting)
  else
    match vesting.locks.lookup vestingId with
    | none => (.error .vestingNotFound, token, vesting)
    | some lock =>
      match lock.revoke currentEpoch with
      | .error _ => (.error .unauthorized, token, vesting)
      | .ok (unvested, revoked) =>
        let vesting := { vesting with locks := vesting.locks.insert vestingId revoked }
        if unvested = 0 then (.ok unvested, token, vesting)
        else
          let beneficiaryPk := findBeneficiaryKey token lock.beneficiary
          match k.release token k.kernelAddress beneficiaryPk unvested .vestingRelease with
          | .error e => (.error e, token, vesting)
          | .ok released =>
            match k.transfer released k.kernelAddress beneficiaryPk returnTo unvested with
            | (.error e, token) => (.error e, token, vesting)
            | (.ok (), token) => (.ok unvested, token, vesting.recordRelease unvested)

end TreasuryKernel

end SovereignNetwork.Treasury
