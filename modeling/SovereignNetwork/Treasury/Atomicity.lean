import SovereignNetwork.Treasury.Srv
import SovereignNetwork.Treasury.Vesting

/-!
# Failed calls on the treasury

Four of the seven calls write before their last check. A call that fails leaves everything as it was exactly where what
these checks look at was settled before the call.
-/

namespace SovereignNetwork.Treasury

open Lib
open Execution (PublicKey TokenContract ExecutionContext)

/-! ## Calls -/

structure TreasuryState where
  kernel : TreasuryKernel
  token : TokenContract
  vesting : VestingState
  srv : SRVState

inductive TreasuryCall
  | transferFrom (ctx : ExecutionContext) (owner recipient : PublicKey) (amount : Nat)
  | transfer (caller source recipient : PublicKey) (amount : Nat)
  | releaseVested (caller : PublicKey) (vestingId : VestingId) (currentEpoch : Nat)
  | revokeVesting (caller : PublicKey) (vestingId : VestingId) (returnTo : PublicKey) (currentEpoch : Nat)
  | executeAuthorizedMint (proposalId : ProposalId) (currentEpoch : Nat)
  | executeAuthorizedBurn (proposalId : ProposalId) (currentEpoch : Nat)
  | applySrvUpdate (caller : PublicKey) (newCommittedValue : Nat) (newMultiplierBps : Option Nat)
      (proposalId : Bytes 32) (height epoch : Nat)

namespace TreasuryState

/-- A call that returns its state with success only. -/
def executed (s : TreasuryState) (result : Except KernelOpError (TreasuryKernel × TokenContract)) :
    Bool × TreasuryState :=
  match result with
  | .error _ => (false, s)
  | .ok (kernel, token) => (true, { s with kernel := kernel, token := token })

/-- Whether the call succeeds, and the state it leaves. -/
def call (s : TreasuryState) : TreasuryCall → Bool × TreasuryState
  | .transferFrom ctx owner recipient amount =>
    let (result, token) := s.token.transferFrom ctx owner recipient amount
    (result.isOk, { s with token := token })
  | .transfer caller source recipient amount =>
    let (result, token) := s.kernel.transfer s.token caller source recipient amount
    (result.isOk, { s with token := token })
  | .releaseVested caller vestingId currentEpoch =>
    let (result, token, vesting) := s.kernel.releaseVested s.token caller vestingId currentEpoch s.vesting
    (result.isOk, { s with token := token, vesting := vesting })
  | .revokeVesting caller vestingId returnTo currentEpoch =>
    let (result, token, vesting) := s.kernel.revokeVesting s.token caller vestingId returnTo currentEpoch s.vesting
    (result.isOk, { s with token := token, vesting := vesting })
  | .executeAuthorizedMint proposalId currentEpoch =>
    s.executed (s.kernel.executeAuthorizedMint s.token proposalId currentEpoch)
  | .executeAuthorizedBurn proposalId currentEpoch =>
    s.executed (s.kernel.executeAuthorizedBurn s.token proposalId currentEpoch)
  | .applySrvUpdate caller newCommittedValue newMultiplierBps proposalId height epoch =>
    let (result, srv) := s.kernel.applySrvUpdate s.srv caller newCommittedValue newMultiplierBps proposalId height epoch
      s.token
    (result.isOk, { s with srv := srv })

/-- The same contract, whose allowances have the same entries. -/
def SameToken (token token' : TokenContract) : Prop :=
  (∀ owner spender, token'.allowanceEntry owner spender = token.allowanceEntry owner spender) ∧
    token' = { token with allowances := token'.allowances }

structure Same (s s' : TreasuryState) : Prop where
  kernel : s'.kernel = s.kernel
  token : SameToken s.token s'.token
  vesting : s'.vesting = s.vesting
  srv : s'.srv = s.srv

/-! ## What the late checks look at -/

/-- The widths of balances and of the amounts of a lock. -/
structure Typed (s : TreasuryState) : Prop where
  balance : ∀ account, s.token.balanceOf account ≤ u128Max
  lock : ∀ vestingId lock, s.vesting.locks.lookup vestingId = some lock → lock.schedule.totalAmount < 2 ^ 64

/-- The recipient of a movement between accounts has room for the amount. -/
def Room (token : TokenContract) (source recipient : PublicKey) (amount : Nat) : Prop :=
  source ≠ recipient → token.balanceOf recipient + amount ≤ u128Max

/-- Locked tokens can be released and moved. -/
def Returnable (token : TokenContract) (account returnTo : PublicKey) (amount : Nat) : Prop :=
  amount ≤ token.lockedBalance account ∧
    amount ≤ token.balanceOf account - (token.lockedBalance account - amount) ∧ Room token account returnTo amount

/-- The late checks of the call pass where it comes to them, or it has written what was there. -/
def Settled (s : TreasuryState) : TreasuryCall → Prop
  | .transferFrom ctx owner _ amount => ∀ spender ∈ ctx.source, amount ≤ s.token.allowance owner spender →
      (s.token.kernelOnlyMode = true → s.token.kernelMintAuthority = some owner) ∧ amount ≤ s.token.balanceOf owner ∨
        amount = 0 ∧ (s.token.allowanceEntry owner spender).isSome
  | .transfer caller source recipient amount => s.kernel.verifyCaller caller = .ok () →
      amount ≤ s.token.availableBalance source → Room s.token source recipient amount
  | .releaseVested _ _ _ | .executeAuthorizedMint _ _ | .executeAuthorizedBurn _ _ => True
  | .revokeVesting caller vestingId returnTo currentEpoch => caller = s.kernel.governanceAuthority →
      ∀ lock ∈ s.vesting.locks.lookup vestingId, ∀ unvested revoked, lock.revoke currentEpoch = .ok (unvested, revoked) →
        unvested = 0 ∨ s.kernel.paused = false ∧
          Returnable s.token (TreasuryKernel.findBeneficiaryKey s.token lock.beneficiary) returnTo unvested
  | .applySrvUpdate caller newCommittedValue newMultiplierBps _ _ _ =>
    caller = s.kernel.governanceAuthority → ∀ mult ∈ newMultiplierBps, mult ≠ 0 → mult ≠ s.srv.stabilityMultiplierBps →
      SRVState.Accepts { s.srv with stabilityMultiplierBps := mult } newCommittedValue s.token.totalSupply

/-! ## Calls that fail -/

section

variable {token : TokenContract} {kernel : TreasuryKernel} {vesting : VestingState} {srv : SRVState}

theorem sameToken_refl (token : TokenContract) : SameToken token token := ⟨fun _ _ => rfl, rfl⟩

theorem sameToken_approve_iff {owner spender : PublicKey} {amount : Nat} :
    SameToken token (token.approve owner spender amount) ↔ token.allowanceEntry owner spender = some amount := by
  have hentry : (token.approve owner spender amount).allowanceEntry owner spender = some amount := by
    simp [TokenContract.allowanceEntry, TokenContract.approve]
  refine ⟨fun h => (h.1 owner spender).symm.trans hentry, fun h => ⟨fun owner' spender' => ?_, rfl⟩⟩
  by_cases howner : owner' = owner
  · subst howner
    by_cases hspender : spender' = spender
    · rw [hspender, hentry, h]
    · cases hspenders : token.allowances.lookup owner' with
      | none =>
        rw [TokenContract.allowanceEntry, hspenders] at h
        cases h
      | some spenders => simp [TokenContract.allowanceEntry, TokenContract.approve, hspender, hspenders]
  · simp [TokenContract.allowanceEntry, TokenContract.approve, howner]

theorem isOk_tokenTransfer_iff (token : TokenContract) (recipient : PublicKey) (amount : Nat) {ctx : ExecutionContext}
    {owner : PublicKey} (hsource : ctx.source = some owner) : (token.transfer ctx recipient amount).isOk = true ↔
      (token.kernelOnlyMode = true → token.kernelMintAuthority = some owner) ∧ amount ≤ token.balanceOf owner := by
  have hkernel : token.checkKernelOnly ctx = .ok () ↔
      (token.kernelOnlyMode = true → token.kernelMintAuthority = some owner) := by
    unfold TokenContract.checkKernelOnly
    rw [hsource]
    by_cases hmode : token.kernelOnlyMode = true
    · by_cases hauthority : token.kernelMintAuthority = some owner <;> simp [hmode, hauthority, pure_eq_ok, throw_eq_ok]
    · simp [hmode, pure_eq_ok]
  have hok : (token.transfer ctx recipient amount).isOk = true ↔
      ∃ result, token.transfer ctx recipient amount = .ok result := by
    cases token.transfer ctx recipient amount <;> simp [Except.isOk, Except.toBool]
  rw [hok, ← hkernel]
  simp only [TokenContract.transfer, bind_eq_ok, guard_eq_ok, pure_eq_ok, okOr_eq_ok, hsource, Option.some.injEq, not_lt]
  constructor
  · rintro ⟨_, _, hchecked, _, rfl, hle, -⟩
    exact ⟨hchecked, hle⟩
  · rintro ⟨hchecked, hle⟩
    exact ⟨_, (), hchecked, owner, rfl, hle, rfl⟩

theorem transferFrom_same_iff {ctx : ExecutionContext} {owner recipient : PublicKey} {amount : Nat} :
    ((token.transferFrom ctx owner recipient amount).1.isOk = false →
        SameToken token (token.transferFrom ctx owner recipient amount).2) ↔
      Settled ⟨kernel, token, vesting, srv⟩ (.transferFrom ctx owner recipient amount) := by
  unfold TokenContract.transferFrom
  dsimp only [Settled]
  cases hsource : ctx.source with
  | none => exact iff_of_true (fun _ => sameToken_refl token) fun _ h => absurd h (Option.not_mem_none _)
  | some spender =>
    simp only [Option.mem_some_iff, forall_eq']
    by_cases hlt : token.allowance owner spender < amount
    · rw [if_pos hlt]
      exact iff_of_true (fun _ => sameToken_refl token) fun hle => absurd hle (Nat.not_le.mpr hlt)
    · rw [if_neg hlt]
      have hle := Nat.le_of_not_lt hlt
      have hiff := isOk_tokenTransfer_iff (token.approve owner spender (token.allowance owner spender - amount)) recipient
        amount (rfl : (ExecutionContext.withContract ctx.caller owner).source = some owner)
      cases htransfer : (token.approve owner spender (token.allowance owner spender - amount)).transfer
          (.withContract ctx.caller owner) recipient amount with
      | ok =>
        rw [htransfer] at hiff
        exact iff_of_true nofun fun _ => .inl (hiff.mp rfl)
      | error e =>
        rw [htransfer] at hiff
        have hnot := hiff.not.mp Bool.false_ne_true
        refine ⟨fun h _ => .inr ?_, fun h _ => ?_⟩
        · have hentry := sameToken_approve_iff.mp (h rfl)
          refine ⟨?_, Option.isSome_iff_exists.mpr ⟨_, hentry⟩⟩
          have hallowance : token.allowance owner spender = token.allowance owner spender - amount :=
            congrArg (Option.getD · 0) hentry
          omega
        · obtain ⟨rfl, hsome⟩ := (h hle).resolve_left hnot
          obtain ⟨allowed, hentry⟩ := Option.isSome_iff_exists.mp hsome
          refine sameToken_approve_iff.mpr (hentry.trans (congrArg some ?_))
          exact (congrArg (Option.getD · 0) hentry).symm

section Transfer

variable {caller source recipient : PublicKey} {amount : Nat}

theorem balanceOf_debited (hbalance : ∀ account, token.balanceOf account ≤ u128Max)
    (hle : amount ≤ token.availableBalance source) :
    (token.setBalance source (token.balanceOf source - amount)).balanceOf recipient + amount ≤ u128Max ↔
      Room token source recipient amount := by
  have := hbalance recipient
  rw [TokenContract.balanceOf_setBalance, Room]
  unfold TokenContract.availableBalance at hle
  by_cases heq : recipient = source
  · subst heq
    rw [if_pos rfl]
    exact iff_of_true (by omega) fun hne => absurd rfl hne
  · rw [if_neg heq]
    exact ⟨fun h _ => h, fun h => h (Ne.symm heq)⟩

theorem transfer_cases (kernel : TreasuryKernel) (token : TokenContract) (caller source recipient : PublicKey) (amount : Nat)
    (hbalance : ∀ account, token.balanceOf account ≤ u128Max) :
    (¬(kernel.verifyCaller caller = .ok () ∧ amount ≤ token.availableBalance source) ∧
      ∃ e, kernel.transfer token caller source recipient amount = (.error e, token)) ∨
    (kernel.verifyCaller caller = .ok () ∧ amount ≤ token.availableBalance source) ∧
      ((Room token source recipient amount ∧
          ∃ credited, kernel.transfer token caller source recipient amount = (.ok (), credited)) ∨
        ¬Room token source recipient amount ∧ kernel.transfer token caller source recipient amount =
          (.error .overflow, token.setBalance source (token.balanceOf source - amount))) := by
  unfold TreasuryKernel.transfer
  cases hcaller : kernel.verifyCaller caller with
  | error e => exact .inl ⟨by simp, e, rfl⟩
  | ok =>
    cases hdebit : token.debitBalance source amount with
    | error e =>
      refine .inl ⟨fun ⟨_, hle⟩ => ?_, _, rfl⟩
      cases hdebit.symm.trans (TokenContract.debitBalance_eq_ok.mpr ⟨hle, rfl⟩)
    | ok debited =>
      obtain ⟨hle, rfl⟩ := TokenContract.debitBalance_eq_ok.mp hdebit
      refine .inr ⟨⟨rfl, hle⟩, ?_⟩
      rw [← balanceOf_debited hbalance hle]
      cases hcredit : (token.setBalance source (token.balanceOf source - amount)).creditBalance recipient amount with
      | ok credited => exact .inl ⟨(TokenContract.creditBalance_eq_ok.mp hcredit).1, credited, by simp only [hcredit]⟩
      | error e =>
        refine .inr ⟨fun hroom => ?_, by simp only [hcredit]⟩
        cases hcredit.symm.trans (TokenContract.creditBalance_eq_ok.mpr ⟨hroom, rfl⟩)

theorem transfer_same_iff (hbalance : ∀ account, token.balanceOf account ≤ u128Max) :
    ((kernel.transfer token caller source recipient amount).1.isOk = false →
        SameToken token (kernel.transfer token caller source recipient amount).2) ↔
      Settled ⟨kernel, token, vesting, srv⟩ (.transfer caller source recipient amount) := by
  rcases transfer_cases kernel token caller source recipient amount hbalance with
    ⟨hnot, e, h⟩ | ⟨⟨hcaller, hle⟩, ⟨hroom, credited, h⟩ | ⟨hroom, h⟩⟩
  · rw [h]
    exact iff_of_true (fun _ => sameToken_refl token) fun hcaller hle => absurd ⟨hcaller, hle⟩ hnot
  · rw [h]
    exact iff_of_true nofun fun _ _ => hroom
  · rw [h]
    refine iff_of_false (fun hsame => hroom fun hne => ?_) fun hall => hroom (hall hcaller hle)
    -- the debit is seen in the balance, unless nothing was moved
    have hequal : (token.setBalance source (token.balanceOf source - amount)).balanceOf source = token.balanceOf source :=
      congrArg (·.balanceOf source) (hsame rfl).2
    have hbound := hbalance recipient
    rw [TokenContract.balanceOf_setBalance, if_pos rfl] at hequal
    unfold TokenContract.availableBalance at hle
    omega

end Transfer

theorem vestedAmount_le (schedule : VestingSchedule) (epoch : Nat) : schedule.vestedAmount epoch ≤ schedule.totalAmount := by
  unfold VestingSchedule.vestedAmount
  split
  · exact Nat.zero_le _
  · split
    · exact Nat.le_refl _
    · dsimp only
      split
      · exact Nat.le_refl _
      · refine (Nat.mod_le _ _).trans (Nat.div_le_of_le_mul ?_)
        rw [Nat.mul_comm]
        exact (Nat.min_le_left _ _).trans (Nat.mul_le_mul_left _ (by omega))

theorem checkAvailable_eq_ok {lock : VestingLock} {epoch available : Nat}
    (h : TreasuryKernel.checkAvailable lock epoch = .ok available) :
    available = lock.availableToRelease epoch ∧ 0 < available := by
  have hactive : (if lock.availableToRelease epoch = 0 then throw KernelOpError.vestingAlreadyFullyReleased
      else pure (lock.availableToRelease epoch)) = (.ok available : Except KernelOpError Nat) := by
    unfold TreasuryKernel.checkAvailable at h
    cases hstatus : lock.status epoch <;> rw [hstatus] at h
    case revoked => exact h
    case active => exact h
    all_goals exact (throw_eq_ok.mp h).elim
  split at hactive
  · exact (throw_eq_ok.mp hactive).elim
  · next hne =>
    cases pure_eq_ok.mp hactive
    exact ⟨rfl, Nat.pos_of_ne_zero hne⟩

theorem checkRelease_eq_ok {caller : PublicKey} {vestingId : VestingId} {epoch available : Nat} {lock : VestingLock}
    (h : kernel.checkRelease caller vestingId epoch vesting = .ok (lock, available)) :
    vesting.locks.lookup vestingId = some lock ∧ TreasuryKernel.checkAvailable lock epoch = .ok available := by
  simp only [TreasuryKernel.checkRelease, bind_eq_ok, okOr_eq_ok, pure_eq_ok, Prod.mk.injEq] at h
  obtain ⟨_, hlock, _, -, _, havailable, rfl, rfl⟩ := h
  exact ⟨hlock, havailable⟩

theorem recordRelease_ok {lock : VestingLock} {epoch available : Nat} (htotal : lock.schedule.totalAmount < 2 ^ 64)
    (h : TreasuryKernel.checkAvailable lock epoch = .ok available) : ∃ lock', lock.recordRelease available = .ok lock' := by
  obtain ⟨heq, hpos⟩ := checkAvailable_eq_ok h
  have hle : ∀ e, lock.schedule.releasableAmount e ≤ lock.schedule.totalAmount := by
    intro e
    unfold VestingSchedule.releasableAmount
    split
    · exact Nat.zero_le _
    · exact vestedAmount_le _ _
  have heffective : ∃ e, lock.availableToRelease epoch = lock.schedule.releasableAmount e - lock.amountReleased := ⟨_, rfl⟩
  obtain ⟨e, he⟩ := heffective
  have htotalLe : lock.amountReleased + available ≤ lock.schedule.totalAmount := by
    have := hle e
    omega
  refine ⟨{ lock with amountReleased := lock.amountReleased + available },
    bind_eq_ok.mpr ⟨lock.amountReleased + available, okOr_eq_ok.mpr (if_pos (by omega)), ?_⟩⟩
  exact guard_eq_ok.mpr ⟨Nat.not_lt.mpr htotalLe, rfl⟩

theorem releaseVested_failed {caller : PublicKey} {vestingId : VestingId} {epoch : Nat}
    (htyped : ∀ lock, vesting.locks.lookup vestingId = some lock → lock.schedule.totalAmount < 2 ^ 64)
    (hfail : (kernel.releaseVested token caller vestingId epoch vesting).1.isOk = false) :
    (kernel.releaseVested token caller vestingId epoch vesting).2 = (token, vesting) := by
  unfold TreasuryKernel.releaseVested at hfail ⊢
  cases hcheck : kernel.checkRelease caller vestingId epoch vesting with
  | error => rfl
  | ok checked =>
    obtain ⟨lock, available⟩ := checked
    obtain ⟨hlock, havailable⟩ := checkRelease_eq_ok hcheck
    obtain ⟨lock', hrecord⟩ := recordRelease_ok (htyped lock hlock) havailable
    cases hrelease : kernel.release token kernel.kernelAddress
        (TreasuryKernel.findBeneficiaryKey token lock.beneficiary) available .vestingRelease with
    | error => simp only [hrelease]
    | ok released =>
      simp only [hcheck, hrelease, hrecord] at hfail
      cases hfail

theorem verifyCaller_kernelAddress (hpaused : kernel.paused = false) :
    kernel.verifyCaller kernel.kernelAddress = .ok () := by
  simp [TreasuryKernel.verifyCaller, hpaused, pure, Except.pure]

theorem verifyCaller_of_paused (hpaused : kernel.paused ≠ false) (caller : PublicKey) :
    kernel.verifyCaller caller ≠ .ok () := by
  simp [TreasuryKernel.verifyCaller, hpaused, throw_eq_ok, bind_eq_ok]

theorem revoke_eq_ok {lock revoked : VestingLock} {epoch unvested : Nat}
    (h : lock.revoke epoch = .ok (unvested, revoked)) : lock.revokedEpoch = none ∧ revoked.revokedEpoch = some epoch := by
  simp only [VestingLock.revoke, guard_eq_ok, pure_eq_ok, Prod.mk.injEq] at h
  obtain ⟨-, hnone, -, rfl⟩ := h
  exact ⟨by simpa using hnone, rfl⟩

theorem locks_insert_ne {lock revoked : VestingLock} {vestingId : VestingId} {epoch unvested : Nat}
    (hlock : vesting.locks.lookup vestingId = some lock) (h : lock.revoke epoch = .ok (unvested, revoked)) :
    vesting.locks.insert vestingId revoked ≠ vesting.locks := by
  intro heq
  obtain ⟨hnone, hsome⟩ := revoke_eq_ok h
  have hlookup := congrArg (AList.lookup vestingId) heq
  rw [HashMap.lookup_insert_eq_ite, if_pos rfl, hlock, Option.some.injEq] at hlookup
  rw [← hlookup, hsome] at hnone
  cases hnone

theorem released_transfer_iff (kernel : TreasuryKernel) (account returnTo : PublicKey) (amount : Nat)
    (hbalance : ∀ account, token.balanceOf account ≤ u128Max) :
    (∃ released returned, kernel.release token kernel.kernelAddress account amount .vestingRelease = .ok released ∧
      kernel.transfer released kernel.kernelAddress account returnTo amount = (.ok (), returned)) ↔
      kernel.paused = false ∧ Returnable token account returnTo amount := by
  have havailable : (token.released account amount).availableBalance account =
      token.balanceOf account - (token.lockedBalance account - amount) := by
    rw [TokenContract.availableBalance, TokenContract.lockedBalance_released, if_pos rfl]
    rfl
  have hcases := transfer_cases kernel (token.released account amount) kernel.kernelAddress account returnTo amount hbalance
  rw [havailable] at hcases
  constructor
  · rintro ⟨released, returned, hrelease, htransfer⟩
    obtain ⟨⟨⟩, hcaller, -⟩ := bind_eq_ok.mp hrelease
    obtain ⟨hlocked, rfl⟩ := TokenContract.releaseBalance_eq_ok.mp (TreasuryKernel.release_eq_ok hrelease)
    refine ⟨by_contra fun hpaused => verifyCaller_of_paused hpaused _ hcaller, hlocked, ?_⟩
    rcases hcases with ⟨-, e, h⟩ | ⟨⟨-, hle⟩, ⟨hroom, -⟩ | ⟨-, h⟩⟩
    · cases htransfer.symm.trans h
    · exact ⟨hle, hroom⟩
    · cases htransfer.symm.trans h
  · rintro ⟨hpaused, hlocked, hle, hroom⟩
    have hkernel := verifyCaller_kernelAddress hpaused
    rcases hcases with ⟨hnot, -⟩ | ⟨-, ⟨-, returned, h⟩ | ⟨hnot, -⟩⟩
    · exact absurd ⟨hkernel, hle⟩ hnot
    · refine ⟨_, returned, bind_eq_ok.mpr ⟨(), hkernel, mapError_eq_ok.mpr ?_⟩, h⟩
      exact TokenContract.releaseBalance_eq_ok.mpr ⟨hlocked, rfl⟩
    · exact absurd hroom hnot

theorem revokeVesting_same_iff {caller returnTo : PublicKey} {vestingId : VestingId} {epoch : Nat}
    (hbalance : ∀ account, token.balanceOf account ≤ u128Max) :
    ((kernel.revokeVesting token caller vestingId returnTo epoch vesting).1.isOk = false →
        SameToken token (kernel.revokeVesting token caller vestingId returnTo epoch vesting).2.1 ∧
          (kernel.revokeVesting token caller vestingId returnTo epoch vesting).2.2 = vesting) ↔
      Settled ⟨kernel, token, vesting, srv⟩ (.revokeVesting caller vestingId returnTo epoch) := by
  unfold TreasuryKernel.revokeVesting
  dsimp only [Settled]
  by_cases hcaller : caller = kernel.governanceAuthority
  · rw [if_neg (not_not.mpr hcaller)]
    cases hlock : vesting.locks.lookup vestingId with
    | none => exact iff_of_true (fun _ => ⟨sameToken_refl token, rfl⟩) fun _ _ h => absurd h (Option.not_mem_none _)
    | some lock =>
      simp only [hcaller, true_imp_iff, Option.mem_some_iff, forall_eq']
      cases hrevoke : lock.revoke epoch with
      | error => exact iff_of_true (fun _ => ⟨sameToken_refl token, rfl⟩) nofun
      | ok result =>
        obtain ⟨unvested, revoked⟩ := result
        -- the lock is another one from here on
        have hchanged := locks_insert_ne hlock hrevoke
        have hiff := released_transfer_iff kernel (TreasuryKernel.findBeneficiaryKey token lock.beneficiary) returnTo
          unvested hbalance
        by_cases hzero : unvested = 0
        · simp only [if_pos hzero]
          refine iff_of_true nofun ?_
          rintro _ _ ⟨⟩
          exact .inl hzero
        · simp only [if_neg hzero]
          cases hrelease : kernel.release token kernel.kernelAddress
              (TreasuryKernel.findBeneficiaryKey token lock.beneficiary) unvested .vestingRelease with
          | error e =>
            refine iff_of_false (fun h => hchanged (congrArg VestingState.locks (h rfl).2)) fun h => ?_
            obtain ⟨_, _, hr, -⟩ := hiff.mpr ((h _ _ rfl).resolve_left hzero)
            cases hrelease.symm.trans hr
          | ok released =>
            cases htransfer : kernel.transfer released kernel.kernelAddress
                (TreasuryKernel.findBeneficiaryKey token lock.beneficiary) returnTo unvested with
            | mk moved returned =>
              cases moved with
              | ok =>
                simp only [htransfer]
                refine iff_of_true nofun ?_
                rintro _ _ ⟨⟩
                exact .inr (hiff.mp ⟨released, returned, hrelease, htransfer⟩)
              | error e =>
                simp only [htransfer]
                refine iff_of_false (fun h => hchanged (congrArg VestingState.locks (h rfl).2)) fun h => ?_
                obtain ⟨_, _, hr, ht⟩ := hiff.mpr ((h _ _ rfl).resolve_left hzero)
                cases hrelease.symm.trans hr
                cases htransfer.symm.trans ht
  · rw [if_pos hcaller]
    exact iff_of_true (fun _ => ⟨sameToken_refl token, rfl⟩) fun h => absurd h hcaller

theorem applySrvUpdate_same_iff {caller : PublicKey} {committed height epoch : Nat} {mult : Option Nat}
    {proposalId : Bytes 32} :
    ((kernel.applySrvUpdate srv caller committed mult proposalId height epoch token).1.isOk = false →
        (kernel.applySrvUpdate srv caller committed mult proposalId height epoch token).2 = srv) ↔
      Settled ⟨kernel, token, vesting, srv⟩ (.applySrvUpdate caller committed mult proposalId height epoch) := by
  unfold TreasuryKernel.applySrvUpdate
  dsimp only [Settled]
  by_cases hcaller : caller = kernel.governanceAuthority
  · rw [if_neg (not_not.mpr hcaller)]
    cases mult with
    | none =>
      dsimp only
      refine iff_of_true (fun hfail => ?_) fun _ _ h => absurd h (Option.not_mem_none _)
      cases hupdate : srv.applyUpdate committed token.totalSupply proposalId height epoch with
      | error => rfl
      | ok updated =>
        rw [hupdate] at hfail
        cases hfail
    | some m =>
      simp only [hcaller, true_imp_iff, Option.mem_some_iff, forall_eq']
      by_cases hzero : m = 0
      · have hm : srv.updateStabilityMultiplier m = .error .invalidStabilityMultiplier := if_pos hzero
        simp only [hm]
        exact iff_of_true (fun _ => trivial) fun hne => absurd hzero hne
      · have hm : srv.updateStabilityMultiplier m = .ok { srv with stabilityMultiplierBps := m } := if_neg hzero
        simp only [hm, ← SRVState.exists_applyUpdate_eq_ok proposalId height epoch]
        cases SRVState.applyUpdate { srv with stabilityMultiplierBps := m } committed token.totalSupply
            proposalId height epoch with
        | ok updated => exact iff_of_true nofun fun _ _ => ⟨_, rfl⟩
        | error e =>
          refine ⟨fun h _ hne => absurd (congrArg (·.stabilityMultiplierBps) (h rfl)) hne, fun h _ => ?_⟩
          by_contra hne
          obtain ⟨_, hok⟩ := h hzero fun heq => hne (by rw [heq])
          cases hok
  · rw [if_pos hcaller]
    exact iff_of_true (fun _ => rfl) fun h => absurd h hcaller

end

theorem executed_failed {s : TreasuryState} {result : Except KernelOpError (TreasuryKernel × TokenContract)}
    (hfail : (s.executed result).1 = false) : (s.executed result).2 = s := by
  cases result with
  | error => rfl
  | ok => cases hfail

theorem same_refl (s : TreasuryState) : Same s s := ⟨rfl, sameToken_refl s.token, rfl, rfl⟩

/-- A call that fails changes nothing exactly if what its late checks look at is settled. -/
theorem call_failed (s : TreasuryState) (op : TreasuryCall) (htyped : s.Typed) :
    ((s.call op).1 = false → Same s (s.call op).2) ↔ s.Settled op := by
  cases op with
  | transferFrom ctx owner recipient amount =>
    exact Iff.trans ⟨fun h hfail => (h hfail).token, fun h hfail => ⟨rfl, h hfail, rfl, rfl⟩⟩ transferFrom_same_iff
  | transfer caller source recipient amount =>
    exact Iff.trans ⟨fun h hfail => (h hfail).token, fun h hfail => ⟨rfl, h hfail, rfl, rfl⟩⟩
      (transfer_same_iff htyped.balance)
  | releaseVested caller vestingId currentEpoch =>
    refine iff_of_true (fun hfail => ?_) trivial
    have h := releaseVested_failed (htyped.lock vestingId) hfail
    simp only [call, h]
    exact same_refl s
  | revokeVesting caller vestingId returnTo currentEpoch =>
    exact Iff.trans ⟨fun h hfail => ⟨(h hfail).token, (h hfail).vesting⟩,
      fun h hfail => ⟨rfl, (h hfail).1, (h hfail).2, rfl⟩⟩ (revokeVesting_same_iff htyped.balance)
  | executeAuthorizedMint proposalId currentEpoch =>
    refine iff_of_true (fun hfail => ?_) trivial
    rw [call, executed_failed hfail]
    exact same_refl s
  | executeAuthorizedBurn proposalId currentEpoch =>
    refine iff_of_true (fun hfail => ?_) trivial
    rw [call, executed_failed hfail]
    exact same_refl s
  | applySrvUpdate caller committed mult proposalId height epoch =>
    exact Iff.trans ⟨fun h hfail => (h hfail).srv, fun h hfail => ⟨rfl, sameToken_refl s.token, rfl, h hfail⟩⟩
      applySrvUpdate_same_iff

/-! ## An allowance that is lost -/

def indebted : TreasuryState where
  kernel := { governanceAuthority := .ofKeyId 8, kernelAddress := .ofKeyId 9 }
  token := (TokenContract.new 1 "Token" "T" 8 1000 false 0 (.ofKeyId 1)).approve (.ofKeyId 1) (.ofKeyId 2) 5
  vesting := {}
  srv := SRVState.newGenesis

def spend (amount : Nat) : TreasuryCall := .transferFrom ⟨.ofKeyId 2, .ofKeyId 0, .user⟩ (.ofKeyId 1) (.ofKeyId 3) amount

theorem typed_indebted : indebted.Typed where
  balance account := by simp [indebted, TokenContract.approve, TokenContract.balanceOf, TokenContract.new]
  lock _ _ hlock := by cases hlock

theorem spend_beyond_allowance :
    (indebted.call (spend 6)).1 = false ∧ Same indebted (indebted.call (spend 6)).2 := by
  have hfail : (indebted.call (spend 6)).1 = false := by decide +kernel
  refine ⟨hfail, (call_failed indebted (spend 6) typed_indebted).mpr ?_ hfail⟩
  intro spender hspender hle
  cases hspender
  exact absurd hle (by decide +kernel)

theorem failed_spend_uses_allowance :
    (indebted.call (spend 5)).1 = false ∧ indebted.token.allowance (.ofKeyId 1) (.ofKeyId 2) = 5 ∧
      (indebted.call (spend 5)).2.token.allowance (.ofKeyId 1) (.ofKeyId 2) = 0 := by
  decide +kernel

end TreasuryState

end SovereignNetwork.Treasury
