import Mathlib.Data.Finset.Insert
import Mathlib.Data.List.Infix
import SovereignNetwork.Tokens.Contract

/-!
# The treasury kernel

The operations of `TreasuryKernel` on token balances, and the authorizations that governance registers with it. Amounts
and epochs are `u64`. Calls on balances leave the kernel as it is, so they return the token only.
-/

namespace SovereignNetwork.Treasury

open Lib
open Execution (PublicKey TokenContract)

/-! ## Data -/

inductive KernelOpError
  | unauthorized
  | paused
  | insufficientBalance
  | insufficientLockedBalance
  | overflow
  | exceedsMaxSupply
  | mintingDisabled
  | missingAuthorization
  | delayNotElapsed
  | authorizationConsumed
  | vestingNotFound
  | vestingCliffNotReached
  | vestingAlreadyFullyReleased
  | invalidVestingSchedule
  | vestingNotStarted
  | invalidState
  deriving DecidableEq

inductive CreditReason
  | ubiDistribution
  | feeDistribution
  | reward
  | mint
  | transfer
  deriving DecidableEq

inductive DebitReason
  | feeCollection
  | burn
  | slash
  | transfer
  deriving DecidableEq

inductive LockReason
  | staking
  | vesting
  | escrow
  deriving DecidableEq

inductive ReleaseReason
  | unstaking
  | vestingRelease
  | escrowComplete
  deriving DecidableEq

abbrev ProposalId := Bytes 32

/-- `MintAuthorization` and `BurnAuthorization`: `keyId` is the account that is paid, or that the burn is taken from. -/
structure Authorization where
  proposalId : ProposalId
  authorizedAmount : Nat
  keyId : Bytes 32
  authorizedAtEpoch : Nat
  executableAfterEpoch : Nat
  consumed : Bool
  deriving DecidableEq

structure TreasuryKernel where
  governanceAuthority : PublicKey
  kernelAddress : PublicKey
  paused : Bool := false
  pendingMintAuthorizations : HashMap ProposalId Authorization := ∅
  pendingBurnAuthorizations : HashMap ProposalId Authorization := ∅
  consumedAuthorizations : Finset ProposalId := ∅
  mintDelayEpochs : Nat := 1

namespace TreasuryKernel

/-! ## Balances -/

def verifyCaller (k : TreasuryKernel) (caller : PublicKey) : Except KernelOpError Unit := do
  if k.paused then
    throw .paused
  if ¬ (caller = k.kernelAddress ∨ caller = k.governanceAuthority) then
    throw .unauthorized

/-- The kernel reads the reason of a failed mint off its message. -/
def mintError (e : String) : KernelOpError :=
  if "exceed maximum supply".toList <:+: e.toList then .exceedsMaxSupply
  else if "disabled".toList <:+: e.toList then .mintingDisabled
  else .unauthorized

def credit (k : TreasuryKernel) (token : TokenContract) (caller recipient : PublicKey) (amount : Nat)
    (reason : CreditReason) : Except KernelOpError TokenContract := do
  k.verifyCaller caller
  match reason with
  | .mint | .ubiDistribution => (token.mintKernelOnly k.kernelAddress recipient amount).mapError mintError
  | .feeDistribution | .reward | .transfer => (token.creditBalance recipient amount).mapError fun _ => .overflow

/-- A burn looks at the balance only, also where part of it is locked. -/
def debit (k : TreasuryKernel) (token : TokenContract) (caller source : PublicKey) (amount : Nat)
    (reason : DebitReason) : Except KernelOpError TokenContract := do
  k.verifyCaller caller
  match reason with
  | .burn =>
    let balance := token.balanceOf source
    if balance < amount then
      throw .insufficientBalance
    return { token.setBalance source (balance - amount) with totalSupply := token.totalSupply - amount }
  | .feeCollection | .slash | .transfer =>
    (token.debitBalance source amount).mapError fun _ => .insufficientBalance

def lock (k : TreasuryKernel) (token : TokenContract) (caller account : PublicKey) (amount : Nat)
    (_reason : LockReason) : Except KernelOpError TokenContract := do
  k.verifyCaller caller
  (token.lockBalance account amount).mapError fun _ => .insufficientBalance

def release (k : TreasuryKernel) (token : TokenContract) (caller account : PublicKey) (amount : Nat)
    (_reason : ReleaseReason) : Except KernelOpError TokenContract := do
  k.verifyCaller caller
  (token.releaseBalance account amount).mapError fun _ => .insufficientLockedBalance

/-- The debit stays when the credit overflows. -/
def transfer (k : TreasuryKernel) (token : TokenContract) (caller source recipient : PublicKey) (amount : Nat) :
    Except KernelOpError Unit × TokenContract :=
  match k.verifyCaller caller with
  | .error e => (.error e, token)
  | .ok () =>
    match token.debitBalance source amount with
    | .error _ => (.error .insufficientBalance, token)
    | .ok debited =>
      match debited.creditBalance recipient amount with
      | .error _ => (.error .overflow, debited)
      | .ok credited => (.ok (), credited)

/-! ## Governance -/

def requireGovernance (k : TreasuryKernel) (caller : PublicKey) : Except KernelOpError Unit := do
  if caller ≠ k.governanceAuthority then
    throw .unauthorized

def pause (k : TreasuryKernel) (caller : PublicKey) : Except KernelOpError TreasuryKernel := do
  k.requireGovernance caller
  return { k with paused := true }

def unpause (k : TreasuryKernel) (caller : PublicKey) : Except KernelOpError TreasuryKernel := do
  k.requireGovernance caller
  return { k with paused := false }

def setMintDelayEpochs (k : TreasuryKernel) (caller : PublicKey) (delay : Nat) :
    Except KernelOpError TreasuryKernel := do
  k.requireGovernance caller
  return { k with mintDelayEpochs := delay }

/-! ## Authorizations -/

def checkRegistration (k : TreasuryKernel) (auth : Authorization) : Except KernelOpError Unit := do
  if auth.proposalId ∈ k.consumedAuthorizations then
    throw .authorizationConsumed
  let minimumExecutableEpoch := saturatingAddU64 auth.authorizedAtEpoch k.mintDelayEpochs
  if auth.executableAfterEpoch < minimumExecutableEpoch then
    throw .delayNotElapsed

def registerMintAuthorization (k : TreasuryKernel) (auth : Authorization) : Except KernelOpError TreasuryKernel := do
  k.checkRegistration auth
  return { k with pendingMintAuthorizations := k.pendingMintAuthorizations.insert auth.proposalId auth }

def registerBurnAuthorization (k : TreasuryKernel) (auth : Authorization) : Except KernelOpError TreasuryKernel := do
  k.checkRegistration auth
  return { k with pendingBurnAuthorizations := k.pendingBurnAuthorizations.insert auth.proposalId auth }

def checkExecution (k : TreasuryKernel) (pending : HashMap ProposalId Authorization) (proposalId : ProposalId)
    (currentEpoch : Nat) : Except KernelOpError Authorization := do
  if k.paused then
    throw .paused
  if proposalId ∈ k.consumedAuthorizations then
    throw .authorizationConsumed
  let auth ← okOr (pending.lookup proposalId) .missingAuthorization
  if auth.consumed then
    throw .authorizationConsumed
  if currentEpoch < auth.executableAfterEpoch then
    throw .delayNotElapsed
  return auth

def executeAuthorizedMint (k : TreasuryKernel) (token : TokenContract) (proposalId : ProposalId) (currentEpoch : Nat) :
    Except KernelOpError (TreasuryKernel × TokenContract) := do
  let auth ← k.checkExecution k.pendingMintAuthorizations proposalId currentEpoch
  let recipient := PublicKey.ofKeyId auth.keyId
  let token ← k.credit token k.kernelAddress recipient auth.authorizedAmount .mint
  return ({ k with
    consumedAuthorizations := insert proposalId k.consumedAuthorizations
    pendingMintAuthorizations :=
      HashMap.modify proposalId (fun a => { a with consumed := true }) k.pendingMintAuthorizations }, token)

def executeAuthorizedBurn (k : TreasuryKernel) (token : TokenContract) (proposalId : ProposalId) (currentEpoch : Nat) :
    Except KernelOpError (TreasuryKernel × TokenContract) := do
  let auth ← k.checkExecution k.pendingBurnAuthorizations proposalId currentEpoch
  let source := PublicKey.ofKeyId auth.keyId
  let token ← k.debit token k.kernelAddress source auth.authorizedAmount .burn
  return ({ k with
    consumedAuthorizations := insert proposalId k.consumedAuthorizations
    pendingBurnAuthorizations :=
      HashMap.modify proposalId (fun a => { a with consumed := true }) k.pendingBurnAuthorizations }, token)

/-! ## What each call does -/

section

variable {k : TreasuryKernel} {token token' : TokenContract} {caller recipient source account : PublicKey} {amount : Nat}

theorem credit_eq_ok {reason : CreditReason} (h : k.credit token caller recipient amount reason = .ok token') :
    wrapU128 (token.totalSupply + amount) ≤ token.maxSupply ∧ token' = token.minted recipient amount ∧
        (reason = .mint ∨ reason = .ubiDistribution) ∨
      token.balanceOf recipient + amount ≤ u128Max ∧
        token' = token.setBalance recipient (token.balanceOf recipient + amount) := by
  obtain ⟨-, -, h⟩ := bind_eq_ok.mp h
  cases reason with
  | mint =>
    obtain ⟨hmax, rfl⟩ := TokenContract.mintKernelOnly_eq_ok (mapError_eq_ok.mp h)
    exact .inl ⟨hmax, rfl, .inl rfl⟩
  | ubiDistribution =>
    obtain ⟨hmax, rfl⟩ := TokenContract.mintKernelOnly_eq_ok (mapError_eq_ok.mp h)
    exact .inl ⟨hmax, rfl, .inr rfl⟩
  | feeDistribution => exact .inr (TokenContract.creditBalance_eq_ok.mp (mapError_eq_ok.mp h))
  | reward => exact .inr (TokenContract.creditBalance_eq_ok.mp (mapError_eq_ok.mp h))
  | transfer => exact .inr (TokenContract.creditBalance_eq_ok.mp (mapError_eq_ok.mp h))

theorem debit_eq_ok {reason : DebitReason} (h : k.debit token caller source amount reason = .ok token') :
    amount ≤ token.balanceOf source ∧ token' = token.burned source amount ∧ reason = .burn ∨
      amount ≤ token.availableBalance source ∧
        token' = token.setBalance source (token.balanceOf source - amount) := by
  obtain ⟨-, -, h⟩ := bind_eq_ok.mp h
  cases reason with
  | burn =>
    simp only [guard_eq_ok, pure_eq_ok] at h
    obtain ⟨hle, rfl⟩ := h
    exact .inl ⟨Nat.le_of_not_lt hle, rfl, rfl⟩
  | feeCollection => exact .inr (TokenContract.debitBalance_eq_ok.mp (mapError_eq_ok.mp h))
  | slash => exact .inr (TokenContract.debitBalance_eq_ok.mp (mapError_eq_ok.mp h))
  | transfer => exact .inr (TokenContract.debitBalance_eq_ok.mp (mapError_eq_ok.mp h))

theorem lock_eq_ok {reason : LockReason} (h : k.lock token caller account amount reason = .ok token') :
    token.lockBalance account amount = .ok token' := by
  obtain ⟨-, -, h⟩ := bind_eq_ok.mp h
  exact mapError_eq_ok.mp h

theorem release_eq_ok {reason : ReleaseReason} (h : k.release token caller account amount reason = .ok token') :
    token.releaseBalance account amount = .ok token' := by
  obtain ⟨-, -, h⟩ := bind_eq_ok.mp h
  exact mapError_eq_ok.mp h

theorem transfer_cases (k : TreasuryKernel) (token : TokenContract) (caller source recipient : PublicKey)
    (amount : Nat) :
    (k.transfer token caller source recipient amount).2 = token ∨
      ∃ debited, token.debitBalance source amount = .ok debited ∧
        ((k.transfer token caller source recipient amount).2 = debited ∨
          debited.creditBalance recipient amount = .ok (k.transfer token caller source recipient amount).2) := by
  unfold transfer
  cases k.verifyCaller caller with
  | error e => exact .inl rfl
  | ok =>
    cases hdebit : token.debitBalance source amount with
    | error e => exact .inl rfl
    | ok debited =>
      refine .inr ⟨debited, rfl, ?_⟩
      cases hcredit : debited.creditBalance recipient amount with
      | error e => exact .inl (by simp only [hcredit])
      | ok credited => exact .inr (by simp only [hcredit])

end

end TreasuryKernel

end SovereignNetwork.Treasury
