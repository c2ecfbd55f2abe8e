import Mathlib.Data.Finset.Basic
import SovereignNetwork.Lib.Run
import SovereignNetwork.Treasury.Kernel

/-!
# Authorizations are used once

A run registers and executes authorizations, pauses the kernel and changes its delay.
-/

namespace SovereignNetwork.Treasury

open Lib
open Execution (PublicKey TokenContract)

/-! ## Mints and burns alike -/

inductive AuthKind
  | mint
  | burn
  deriving DecidableEq

namespace TreasuryKernel

def pending (k : TreasuryKernel) : AuthKind → HashMap ProposalId Authorization
  | .mint => k.pendingMintAuthorizations
  | .burn => k.pendingBurnAuthorizations

def register (k : TreasuryKernel) (kind : AuthKind) (auth : Authorization) : Except KernelOpError TreasuryKernel :=
  match kind with
  | .mint => k.registerMintAuthorization auth
  | .burn => k.registerBurnAuthorization auth

def execute (k : TreasuryKernel) (kind : AuthKind) (token : TokenContract) (proposalId : ProposalId)
    (currentEpoch : Nat) : Except KernelOpError (TreasuryKernel × TokenContract) :=
  match kind with
  | .mint => k.executeAuthorizedMint token proposalId currentEpoch
  | .burn => k.executeAuthorizedBurn token proposalId currentEpoch

end TreasuryKernel

/-- The token after an authorized mint to the account, or burn from it. -/
def AuthKind.apply (kind : AuthKind) (token : TokenContract) (keyId : Bytes 32) (amount : Nat) : TokenContract :=
  match kind with
  | .mint => token.minted (PublicKey.ofKeyId keyId) amount
  | .burn => token.burned (PublicKey.ofKeyId keyId) amount

/-! ## Runs -/

structure Registration where
  kind : AuthKind
  auth : Authorization
  /-- The delay in force. -/
  delay : Nat

structure AuthRun where
  kernel : TreasuryKernel
  token : TokenContract
  /-- Newest first. -/
  registered : List Registration := []
  executed : List ProposalId := []

inductive AuthCall
  | register (kind : AuthKind) (auth : Authorization)
  | execute (kind : AuthKind) (proposalId : ProposalId) (currentEpoch : Nat)
  | pause (caller : PublicKey)
  | unpause (caller : PublicKey)
  | setMintDelayEpochs (caller : PublicKey) (delay : Nat)

namespace AuthRun

def step (r : AuthRun) : AuthCall → AuthRun
  | .register kind auth =>
    match r.kernel.register kind auth with
    | .error _ => r
    | .ok kernel =>
      { r with kernel := kernel, registered := ⟨kind, auth, r.kernel.mintDelayEpochs⟩ :: r.registered }
  | .execute kind proposalId currentEpoch =>
    match r.kernel.execute kind r.token proposalId currentEpoch with
    | .error _ => r
    | .ok (kernel, token) => { r with kernel := kernel, token := token, executed := proposalId :: r.executed }
  | .pause caller => { r with kernel := (r.kernel.pause caller).toOption.getD r.kernel }
  | .unpause caller => { r with kernel := (r.kernel.unpause caller).toOption.getD r.kernel }
  | .setMintDelayEpochs caller delay =>
    { r with kernel := (r.kernel.setMintDelayEpochs caller delay).toOption.getD r.kernel }

/-- The latest registration of the proposal for a mint, or for a burn. -/
def latest (r : AuthRun) (kind : AuthKind) (proposalId : ProposalId) : Option Registration :=
  r.registered.find? fun reg => reg.kind = kind ∧ reg.auth.proposalId = proposalId

/-- An execution is of the latest registration, by a kernel that is not paused, for the first time and not before the
delay in force at that registration is over. A registration of an executed proposal fails. -/
def Authorized (r : AuthRun) : AuthCall → Prop
  | .execute kind proposalId currentEpoch => ∀ kernel token,
    r.kernel.execute kind r.token proposalId currentEpoch = .ok (kernel, token) →
      r.kernel.paused = false ∧ proposalId ∉ r.executed ∧
        ∃ reg, r.latest kind proposalId = some reg ∧
          min (reg.auth.authorizedAtEpoch + reg.delay) (2 ^ 64 - 1) ≤ currentEpoch ∧
          token = kind.apply r.token reg.auth.keyId reg.auth.authorizedAmount
  | .register kind auth =>
    auth.proposalId ∈ r.executed → r.kernel.register kind auth = .error .authorizationConsumed
  | .pause _ => True
  | .unpause _ => True
  | .setMintDelayEpochs _ _ => True

end AuthRun

/-! ## What a call does -/

namespace TreasuryKernel

variable {k k' : TreasuryKernel} {kind : AuthKind} {auth : Authorization} {token token' : TokenContract}
  {proposalId : ProposalId} {currentEpoch : Nat}

structure Registered (k : TreasuryKernel) (kind : AuthKind) (auth : Authorization) (k' : TreasuryKernel) : Prop where
  notConsumed : auth.proposalId ∉ k.consumedAuthorizations
  delayed : saturatingAddU64 auth.authorizedAtEpoch k.mintDelayEpochs ≤ auth.executableAfterEpoch
  consumed : k'.consumedAuthorizations = k.consumedAuthorizations
  pending : ∀ kind', k'.pending kind' =
    if kind' = kind then (k.pending kind').insert auth.proposalId auth else k.pending kind'

theorem registered_of_register (h : k.register kind auth = .ok k') : Registered k kind auth k' := by
  have hcheck : k.checkRegistration auth = .ok () → auth.proposalId ∉ k.consumedAuthorizations ∧
      saturatingAddU64 auth.authorizedAtEpoch k.mintDelayEpochs ≤ auth.executableAfterEpoch := by
    intro h
    unfold checkRegistration at h
    obtain ⟨hconsumed, h⟩ := guard_eq_ok.mp h
    refine ⟨hconsumed, Nat.le_of_not_lt fun hlt => ?_⟩
    rw [if_pos hlt] at h
    cases h
  cases kind with
  | mint =>
    obtain ⟨_, hc, h⟩ := bind_eq_ok.mp h
    cases h
    exact ⟨(hcheck hc).1, (hcheck hc).2, rfl, fun kind' => by cases kind' <;> rfl⟩
  | burn =>
    obtain ⟨_, hc, h⟩ := bind_eq_ok.mp h
    cases h
    exact ⟨(hcheck hc).1, (hcheck hc).2, rfl, fun kind' => by cases kind' <;> rfl⟩

theorem register_of_consumed (h : auth.proposalId ∈ k.consumedAuthorizations) :
    k.register kind auth = .error .authorizationConsumed := by
  have hcheck : k.checkRegistration auth = .error .authorizationConsumed := by
    unfold checkRegistration
    rw [if_pos h]
    rfl
  cases kind with
  | mint => simp only [register, registerMintAuthorization, hcheck]; rfl
  | burn => simp only [register, registerBurnAuthorization, hcheck]; rfl

structure Executed (k : TreasuryKernel) (kind : AuthKind) (token : TokenContract) (proposalId : ProposalId)
    (currentEpoch : Nat) (auth : Authorization) (k' : TreasuryKernel) (token' : TokenContract) : Prop where
  notPaused : k.paused = false
  notConsumed : proposalId ∉ k.consumedAuthorizations
  lookup : (k.pending kind).lookup proposalId = some auth
  elapsed : auth.executableAfterEpoch ≤ currentEpoch
  token : token' = kind.apply token auth.keyId auth.authorizedAmount
  consumed : k'.consumedAuthorizations = insert proposalId k.consumedAuthorizations
  pending : ∀ kind', k'.pending kind' =
    if kind' = kind then HashMap.modify proposalId (fun a => { a with consumed := true }) (k.pending kind')
    else k.pending kind'

theorem checkExecution_eq_ok {pending : HashMap ProposalId Authorization}
    (h : k.checkExecution pending proposalId currentEpoch = .ok auth) :
    k.paused = false ∧ proposalId ∉ k.consumedAuthorizations ∧ pending.lookup proposalId = some auth ∧
      auth.executableAfterEpoch ≤ currentEpoch := by
  simp only [checkExecution, guard_eq_ok, bind_eq_ok, okOr_eq_ok, pure_eq_ok] at h
  obtain ⟨hpaused, hconsumed, _, hlookup, -, helapsed, rfl⟩ := h
  exact ⟨by simpa using hpaused, hconsumed, hlookup, Nat.le_of_not_lt helapsed⟩

theorem executed_of_execute (h : k.execute kind token proposalId currentEpoch = .ok (k', token')) :
    ∃ auth, Executed k kind token proposalId currentEpoch auth k' token' := by
  cases kind with
  | mint =>
    simp only [execute, executeAuthorizedMint, bind_eq_ok, pure_eq_ok, Prod.mk.injEq] at h
    obtain ⟨auth, hcheck, _, hcredit, rfl, rfl⟩ := h
    obtain ⟨hpaused, hconsumed, hlookup, helapsed⟩ := checkExecution_eq_ok hcheck
    obtain ⟨-, -, hcredit⟩ := bind_eq_ok.mp hcredit
    obtain ⟨-, htoken⟩ := TokenContract.mintKernelOnly_eq_ok (mapError_eq_ok.mp hcredit)
    exact ⟨auth, hpaused, hconsumed, hlookup, helapsed, htoken, rfl, fun kind' => by cases kind' <;> rfl⟩
  | burn =>
    simp only [execute, executeAuthorizedBurn, bind_eq_ok, pure_eq_ok, Prod.mk.injEq] at h
    obtain ⟨auth, hcheck, _, hdebit, rfl, rfl⟩ := h
    obtain ⟨hpaused, hconsumed, hlookup, helapsed⟩ := checkExecution_eq_ok hcheck
    obtain ⟨-, -, hdebit⟩ := bind_eq_ok.mp hdebit
    simp only [guard_eq_ok, pure_eq_ok] at hdebit
    exact ⟨auth, hpaused, hconsumed, hlookup, helapsed, hdebit.2.symm, rfl, fun kind' => by cases kind' <;> rfl⟩

def SameAuthorizations (k k' : TreasuryKernel) : Prop :=
  k'.consumedAuthorizations = k.consumedAuthorizations ∧ ∀ kind, k'.pending kind = k.pending kind

theorem SameAuthorizations.governed (caller : PublicKey) (h : SameAuthorizations k k') :
    SameAuthorizations k ((k.requireGovernance caller >>= fun _ => pure k').toOption.getD k) := by
  cases k.requireGovernance caller with
  | error e => exact ⟨rfl, fun _ => rfl⟩
  | ok => exact h

end TreasuryKernel

/-! ## The invariant -/

namespace AuthRun

variable {r : AuthRun} {kind : AuthKind} {auth : Authorization} {proposalId : ProposalId}

/-- A pending authorization is the latest registration of its kind, but for the mark that it was used. -/
structure Pending (auth : Authorization) (reg : Registration) : Prop where
  authorizedAmount : auth.authorizedAmount = reg.auth.authorizedAmount
  keyId : auth.keyId = reg.auth.keyId
  executableAfterEpoch : auth.executableAfterEpoch = reg.auth.executableAfterEpoch
  delayed : saturatingAddU64 reg.auth.authorizedAtEpoch reg.delay ≤ reg.auth.executableAfterEpoch

structure Inv (r : AuthRun) : Prop where
  consumed : ∀ id, id ∈ r.kernel.consumedAuthorizations ↔ id ∈ r.executed
  nodup : r.executed.Nodup
  pending : ∀ kind id auth, (r.kernel.pending kind).lookup id = some auth →
    ∃ reg, r.latest kind id = some reg ∧ Pending auth reg

theorem Inv.start (governanceAuthority kernelAddress : PublicKey) (token : TokenContract) :
    Inv ⟨{ governanceAuthority, kernelAddress }, token, [], []⟩ := by
  refine ⟨fun id => ?_, List.nodup_nil, fun kind id auth h => ?_⟩
  · simp
  · cases kind <;> cases h

theorem Inv.authorized (h : Inv r) (call : AuthCall) : r.Authorized call := by
  cases call with
  | register kind auth =>
    intro hmem
    exact TreasuryKernel.register_of_consumed ((h.consumed _).mpr hmem)
  | execute kind proposalId currentEpoch =>
    intro kernel token hexecute
    obtain ⟨auth, hexecuted⟩ := TreasuryKernel.executed_of_execute hexecute
    obtain ⟨reg, hlatest, hpending⟩ := h.pending _ _ _ hexecuted.lookup
    refine ⟨hexecuted.notPaused, fun hmem => hexecuted.notConsumed ((h.consumed _).mpr hmem), reg, hlatest, ?_, ?_⟩
    · have hle : auth.executableAfterEpoch ≤ currentEpoch := hexecuted.elapsed
      rw [hpending.executableAfterEpoch] at hle
      exact Nat.le_trans hpending.delayed hle
    · rw [← hpending.keyId, ← hpending.authorizedAmount]
      exact hexecuted.token
  | pause caller => trivial
  | unpause caller => trivial
  | setMintDelayEpochs caller delay => trivial

theorem Inv.register {k' : TreasuryKernel} (h : Inv r) (hreg : TreasuryKernel.Registered r.kernel kind auth k') :
    Inv { r with kernel := k', registered := ⟨kind, auth, r.kernel.mintDelayEpochs⟩ :: r.registered } := by
  refine ⟨fun id => ?_, h.nodup, fun kind' id auth' hlookup => ?_⟩
  · rw [hreg.consumed]
    exact h.consumed id
  · simp only [hreg.pending] at hlookup
    by_cases hkey : kind' = kind ∧ id = auth.proposalId
    · obtain ⟨rfl, rfl⟩ := hkey
      rw [if_pos rfl, AList.lookup_insert] at hlookup
      cases hlookup
      exact ⟨⟨kind', auth, r.kernel.mintDelayEpochs⟩, by simp [latest], rfl, rfl, rfl, hreg.delayed⟩
    · have hold : (r.kernel.pending kind').lookup id = some auth' := by
        by_cases hkind : kind' = kind
        · rw [if_pos hkind, AList.lookup_insert_ne fun hid => hkey ⟨hkind, hid⟩] at hlookup
          exact hlookup
        · rwa [if_neg hkind] at hlookup
      obtain ⟨reg, hlatest, hpending⟩ := h.pending _ _ _ hold
      refine ⟨reg, ?_, hpending⟩
      rw [← hlatest]
      refine List.find?_cons_of_neg ?_
      simpa using fun hk hid => hkey ⟨hk.symm, hid.symm⟩

theorem Inv.execute {k' : TreasuryKernel} {token' : TokenContract} {currentEpoch : Nat} (h : Inv r)
    (hex : TreasuryKernel.Executed r.kernel kind r.token proposalId currentEpoch auth k' token') :
    Inv { r with kernel := k', token := token', executed := proposalId :: r.executed } := by
  refine ⟨fun id => ?_, ?_, fun kind' id auth' hlookup => ?_⟩
  · rw [hex.consumed, Finset.mem_insert, List.mem_cons, h.consumed]
  · exact List.nodup_cons.mpr ⟨fun hmem => hex.notConsumed ((h.consumed _).mpr hmem), h.nodup⟩
  · simp only [hex.pending] at hlookup
    have hold : ∃ old, (r.kernel.pending kind').lookup id = some old ∧ auth'.authorizedAmount = old.authorizedAmount ∧
        auth'.keyId = old.keyId ∧ auth'.executableAfterEpoch = old.executableAfterEpoch := by
      split at hlookup
      · rw [HashMap.lookup_modify] at hlookup
        split at hlookup
        · next hid =>
          obtain ⟨old, hold, rfl⟩ := Option.map_eq_some_iff.mp hlookup
          exact ⟨old, hid ▸ hold, rfl, rfl, rfl⟩
        · exact ⟨auth', hlookup, rfl, rfl, rfl⟩
      · exact ⟨auth', hlookup, rfl, rfl, rfl⟩
    obtain ⟨old, hold, hamount, hkey, hafter⟩ := hold
    obtain ⟨reg, hlatest, hpending⟩ := h.pending _ _ _ hold
    exact ⟨reg, hlatest, hamount.trans hpending.authorizedAmount, hkey.trans hpending.keyId,
      hafter.trans hpending.executableAfterEpoch, hpending.delayed⟩

theorem Inv.same {k' : TreasuryKernel} (h : Inv r) (hsame : TreasuryKernel.SameAuthorizations r.kernel k') :
    Inv { r with kernel := k' } := by
  refine ⟨fun id => ?_, h.nodup, fun kind id auth hlookup => ?_⟩
  · rw [hsame.1]
    exact h.consumed id
  · rw [hsame.2] at hlookup
    exact h.pending kind id auth hlookup

theorem Inv.step (h : Inv r) (call : AuthCall) : Inv (r.step call) := by
  cases call with
  | register kind auth =>
    dsimp only [AuthRun.step]
    split
    · exact h
    · next hreg => exact h.register (TreasuryKernel.registered_of_register hreg)
  | execute kind proposalId currentEpoch =>
    dsimp only [AuthRun.step]
    split
    · exact h
    · next hex =>
      obtain ⟨auth, hexecuted⟩ := TreasuryKernel.executed_of_execute hex
      exact h.execute hexecuted
  | pause caller => exact h.same (.governed caller ⟨rfl, fun kind => by cases kind <;> rfl⟩)
  | unpause caller => exact h.same (.governed caller ⟨rfl, fun kind => by cases kind <;> rfl⟩)
  | setMintDelayEpochs caller delay => exact h.same (.governed caller ⟨rfl, fun kind => by cases kind <;> rfl⟩)

end AuthRun

/-! ## Whole runs -/

/-- From a new kernel, in any run: every execution is of the latest registration of its kind, while not paused, for the
first time and once the delay in force at that registration is over; a registration after the execution fails; and no
proposal is executed twice, be it as a mint or as a burn. -/
theorem authorizations_are_used_once (governanceAuthority kernelAddress : PublicKey) (token : TokenContract)
    (calls : List AuthCall) :
    let start : AuthRun := ⟨{ governanceAuthority, kernelAddress }, token, [], []⟩
    Along AuthRun.step AuthRun.Authorized start calls ∧ (run AuthRun.step start calls).executed.Nodup := by
  intro start
  have hany : Along AuthRun.step (fun _ _ => True) start calls := .of_forall (fun _ _ => trivial) _ _
  have hstep : ∀ r call, True → AuthRun.Inv r → (r.step call).Inv := fun r call _ h => h.step call
  have hstart := AuthRun.Inv.start governanceAuthority kernelAddress token
  refine ⟨?_, (hany.invariant hstep hstart).nodup⟩
  exact (hany.with_invariant hstep hstart).mono fun r call h => h.2.authorized call

def councilKernel : TreasuryKernel where
  governanceAuthority := ⟨3, 0, 3⟩
  kernelAddress := ⟨4, 0, 4⟩

def councilToken : TokenContract :=
  { TokenContract.new 7 "Council" "CNC" 8 1000 false 0 ⟨4, 0, 4⟩ with kernelMintAuthority := some ⟨4, 0, 4⟩ }

/-- At the last epoch an authorization granted then is executed at once, although the delay is one epoch. A burn
registered later under the same proposal does not replace the mint. -/
theorem execution_at_last_epoch_and_after_other_kind :
    let last : Authorization := ⟨1, 50, 9, 2 ^ 64 - 1, 2 ^ 64 - 1, false⟩
    let atLast := run AuthRun.step ⟨councilKernel, councilToken, [], []⟩
      [.register .mint last, .execute .mint 1 (2 ^ 64 - 1)]
    let both := run AuthRun.step ⟨councilKernel, councilToken, [], []⟩
      [.register .mint ⟨1, 50, 9, 0, 1, false⟩, .register .burn ⟨1, 20, 9, 5, 6, false⟩, .execute .mint 1 1]
    councilKernel.mintDelayEpochs = 1 ∧ atLast.executed = [1] ∧ 2 ^ 64 - 1 < last.authorizedAtEpoch + 1 ∧
      both.executed = [1] ∧ both.token.totalSupply = 50 ∧
      (both.registered.head?.map fun reg => reg.auth.authorizedAmount) = some 20 := by
  decide +kernel

end SovereignNetwork.Treasury
