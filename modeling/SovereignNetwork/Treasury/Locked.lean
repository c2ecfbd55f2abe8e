import SovereignNetwork.Lib.Run
import SovereignNetwork.Treasury.Kernel

/-!
# Locked tokens

What is locked in an account stays within its balance as long as holders and burns only take what is available: they
look at the balance alone, while the debits of the treasury also look at what is locked.
-/

namespace SovereignNetwork.Treasury

open Lib
open Execution (PublicKey TokenContract TokenCall)

/-! ## Runs -/

/-- A call on the token, by its holders or through a kernel. -/
inductive HoldingCall
  | token (call : TokenCall)
  | creditBalance (recipient : PublicKey) (amount : Nat)
  | debitBalance (source : PublicKey) (amount : Nat)
  | lockBalance (account : PublicKey) (amount : Nat)
  | releaseBalance (account : PublicKey) (amount : Nat)
  | credit (kernel : TreasuryKernel) (caller recipient : PublicKey) (amount : Nat) (reason : CreditReason)
  | debit (kernel : TreasuryKernel) (caller source : PublicKey) (amount : Nat) (reason : DebitReason)
  | lock (kernel : TreasuryKernel) (caller account : PublicKey) (amount : Nat) (reason : LockReason)
  | release (kernel : TreasuryKernel) (caller account : PublicKey) (amount : Nat) (reason : ReleaseReason)
  | transfer (kernel : TreasuryKernel) (caller source recipient : PublicKey) (amount : Nat)

def hold (c : TokenContract) : HoldingCall → TokenContract
  | .token call => c.call call
  | .creditBalance recipient amount => (c.creditBalance recipient amount).toOption.getD c
  | .debitBalance source amount => (c.debitBalance source amount).toOption.getD c
  | .lockBalance account amount => (c.lockBalance account amount).toOption.getD c
  | .releaseBalance account amount => (c.releaseBalance account amount).toOption.getD c
  | .credit kernel caller recipient amount reason => (kernel.credit c caller recipient amount reason).toOption.getD c
  | .debit kernel caller source amount reason => (kernel.debit c caller source amount reason).toOption.getD c
  | .lock kernel caller account amount reason => (kernel.lock c caller account amount reason).toOption.getD c
  | .release kernel caller account amount reason => (kernel.release c caller account amount reason).toOption.getD c
  | .transfer kernel caller source recipient amount => (kernel.transfer c caller source recipient amount).2

/-- A transfer between two accounts takes what is available and does not wrap. -/
def MoveSafe (c : TokenContract) (source recipient : PublicKey) (amount : Nat) : Prop :=
  source ≠ recipient → amount ≤ c.availableBalance source ∧ c.balanceOf recipient + amount ≤ u128Max

instance (c : TokenContract) (source recipient : PublicKey) (amount : Nat) :
    Decidable (MoveSafe c source recipient amount) := by unfold MoveSafe; infer_instance

/-- Condition on a call: a burn or a transfer takes what is available only, and no balance wraps. -/
def LockSafe (c : TokenContract) : HoldingCall → Prop
  | .token (.mint recipient amount) => c.balanceOf recipient + amount ≤ u128Max
  | .token (.mintKernelOnly _ recipient amount) => c.balanceOf recipient + amount ≤ u128Max
  | .token (.burn source amount) => amount ≤ c.availableBalance source
  | .token (.transfer ctx recipient amount) => ∀ source ∈ ctx.source, MoveSafe c source recipient amount
  | .token (.transferFrom _ owner recipient amount) => MoveSafe c owner recipient amount
  | .credit _ _ recipient amount reason =>
    reason = .mint ∨ reason = .ubiDistribution → c.balanceOf recipient + amount ≤ u128Max
  | .debit _ _ source amount reason => reason = .burn → amount ≤ c.availableBalance source
  | _ => True

/-- Nothing is locked that is not there. Balances are `u128`. -/
structure LocksHeld (c : TokenContract) : Prop where
  within : ∀ a, c.lockedBalance a ≤ c.balanceOf a
  fits : ∀ a, c.balanceOf a ≤ u128Max

/-! ## What a call keeps -/

namespace LocksHeld

variable {c c' : TokenContract} {source recipient account : PublicKey} {amount v : Nat}

theorem setBalance (h : LocksHeld c) (hlocked : c.lockedBalance account ≤ v) (hfits : v ≤ u128Max) :
    LocksHeld (c.setBalance account v) := by
  constructor
  · intro a
    rw [TokenContract.balanceOf_setBalance, TokenContract.lockedBalance_setBalance]
    split
    · next ha => exact ha ▸ hlocked
    · exact h.within a
  · intro a
    rw [TokenContract.balanceOf_setBalance]
    split
    · exact hfits
    · exact h.fits a

theorem credited (h : LocksHeld c) (hfits : c.balanceOf recipient + amount ≤ u128Max) :
    LocksHeld (c.setBalance recipient (c.balanceOf recipient + amount)) :=
  h.setBalance (Nat.le_trans (h.within recipient) (Nat.le_add_right _ _)) hfits

theorem debited (h : LocksHeld c) (hle : amount ≤ c.availableBalance source) :
    LocksHeld (c.setBalance source (c.balanceOf source - amount)) := by
  have hwithin := h.within source
  have hfits := h.fits source
  unfold TokenContract.availableBalance at hle
  exact h.setBalance (by omega) (by omega)

theorem minted (h : LocksHeld c) (hfits : c.balanceOf recipient + amount ≤ u128Max) :
    LocksHeld (c.minted recipient amount) := by
  have hcredit := h.credited hfits
  rw [← wrapU128_of_le hfits] at hcredit
  exact ⟨hcredit.within, hcredit.fits⟩

theorem burned (h : LocksHeld c) (hle : amount ≤ c.availableBalance source) : LocksHeld (c.burned source amount) :=
  ⟨(h.debited hle).within, (h.debited hle).fits⟩

theorem transferred (h : LocksHeld c) (hle : amount ≤ c.balanceOf source) (hsafe : MoveSafe c source recipient amount) :
    LocksHeld (c.transferred source recipient amount) := by
  suffices hmoved : LocksHeld (c.moved source recipient amount) from ⟨hmoved.within, hmoved.fits⟩
  unfold TokenContract.moved
  dsimp only
  by_cases hself : source = recipient
  · subst hself
    have hback : c.balanceOf source - amount + amount = c.balanceOf source := Nat.sub_add_cancel hle
    rw [TokenContract.balanceOf_setBalance, if_pos rfl, hback, wrapU128_of_le (h.fits source)]
    constructor
    · intro a
      rw [TokenContract.balanceOf_setBalance, TokenContract.balanceOf_setBalance]
      split
      · next ha => exact ha ▸ h.within a
      · exact h.within a
    · intro a
      rw [TokenContract.balanceOf_setBalance, TokenContract.balanceOf_setBalance]
      split
      · exact h.fits source
      · exact h.fits a
  · obtain ⟨havailable, hfits⟩ := hsafe hself
    have hother : (c.setBalance source (c.balanceOf source - amount)).balanceOf recipient = c.balanceOf recipient := by
      rw [TokenContract.balanceOf_setBalance, if_neg (Ne.symm hself)]
    have hdebited := h.debited havailable
    rw [hother, wrapU128_of_le hfits]
    exact hdebited.setBalance (Nat.le_trans (h.within recipient) (Nat.le_add_right _ _)) hfits

theorem locked (h : LocksHeld c) (hle : amount ≤ c.availableBalance account) : LocksHeld (c.lockedBy account amount) := by
  refine ⟨fun a => ?_, h.fits⟩
  change _ ≤ c.balanceOf a
  rw [TokenContract.lockedBalance_lockedBy]
  split
  · next ha =>
    subst ha
    have hwithin := h.within a
    unfold TokenContract.availableBalance at hle
    omega
  · exact h.within a

theorem released (h : LocksHeld c) : LocksHeld (c.released account amount) := by
  refine ⟨fun a => ?_, h.fits⟩
  change _ ≤ c.balanceOf a
  rw [TokenContract.lockedBalance_released]
  split
  · next ha =>
    subst ha
    exact Nat.le_trans (Nat.sub_le _ _) (h.within a)
  · exact h.within a

theorem effect {call : TokenCall} (h : LocksHeld c) (hsafe : LockSafe c (.token call))
    (heffect : TokenContract.Effect c call c') : LocksHeld c' := by
  cases heffect with
  | refused => exact h
  | mint => exact h.minted hsafe
  | mintKernelOnly => exact h.minted hsafe
  | burn => exact h.burned hsafe
  | transfer hsource hle => exact h.transferred hle (hsafe _ hsource)
  | allowanceOnly => exact ⟨h.within, h.fits⟩
  | transferFrom hle =>
    refine transferred ⟨h.within, h.fits⟩ hle ?_
    exact hsafe
  | approve => exact ⟨h.within, h.fits⟩

theorem of_result {ε : Type} {x : Except ε TokenContract} (h : LocksHeld c) (hok : ∀ c', x = .ok c' → LocksHeld c') :
    LocksHeld (x.toOption.getD c) := by
  cases x with
  | error e => exact h
  | ok c' => exact hok c' rfl

theorem lockBalance (h : LocksHeld c) (hlock : c.lockBalance account amount = .ok c') : LocksHeld c' := by
  obtain ⟨hle, -, rfl⟩ := TokenContract.lockBalance_eq_ok.mp hlock
  exact h.locked hle

theorem releaseBalance (h : LocksHeld c) (hrelease : c.releaseBalance account amount = .ok c') : LocksHeld c' := by
  obtain ⟨-, rfl⟩ := TokenContract.releaseBalance_eq_ok.mp hrelease
  exact h.released

theorem creditBalance (h : LocksHeld c) (hcredit : c.creditBalance recipient amount = .ok c') : LocksHeld c' := by
  obtain ⟨hfits, rfl⟩ := TokenContract.creditBalance_eq_ok.mp hcredit
  exact h.credited hfits

theorem debitBalance (h : LocksHeld c) (hdebit : c.debitBalance source amount = .ok c') : LocksHeld c' := by
  obtain ⟨hle, rfl⟩ := TokenContract.debitBalance_eq_ok.mp hdebit
  exact h.debited hle

theorem hold {call : HoldingCall} (hsafe : LockSafe c call) (h : LocksHeld c) : LocksHeld (Treasury.hold c call) := by
  cases call with
  | token call => exact h.effect hsafe (TokenContract.effect_call c call)
  | creditBalance recipient amount => exact h.of_result fun _ => h.creditBalance
  | debitBalance source amount => exact h.of_result fun _ => h.debitBalance
  | lockBalance account amount => exact h.of_result fun _ => h.lockBalance
  | releaseBalance account amount => exact h.of_result fun _ => h.releaseBalance
  | credit kernel caller recipient amount reason =>
    refine h.of_result fun c' hcredit => ?_
    rcases TreasuryKernel.credit_eq_ok hcredit with ⟨-, rfl, hreason⟩ | ⟨hfits, rfl⟩
    · exact h.minted (hsafe hreason)
    · exact h.credited hfits
  | debit kernel caller source amount reason =>
    refine h.of_result fun c' hdebit => ?_
    rcases TreasuryKernel.debit_eq_ok hdebit with ⟨-, rfl, hreason⟩ | ⟨hle, rfl⟩
    · exact h.burned (hsafe hreason)
    · exact h.debited hle
  | lock kernel caller account amount reason =>
    exact h.of_result fun _ hlock => h.lockBalance (TreasuryKernel.lock_eq_ok hlock)
  | release kernel caller account amount reason =>
    exact h.of_result fun _ hrelease => h.releaseBalance (TreasuryKernel.release_eq_ok hrelease)
  | transfer kernel caller source recipient amount =>
    rcases kernel.transfer_cases c caller source recipient amount with heq | ⟨debited, hdebit, heq | hcredit⟩
    · rw [Treasury.hold, heq]
      exact h
    · rw [Treasury.hold, heq]
      exact h.debitBalance hdebit
    · exact (h.debitBalance hdebit).creditBalance hcredit

end LocksHeld

/-! ## Whole runs -/

/-- In a run whose burns and transfers take what is available only, and in which no balance wraps, no account ever has
more locked than its balance. -/
theorem locked_tokens_stay {c : TokenContract} (hstart : LocksHeld c) (calls : List HoldingCall)
    (hsafe : Along hold LockSafe c calls) (account : PublicKey) :
    (run hold c calls).lockedBalance account ≤ (run hold c calls).balanceOf account :=
  (hsafe.invariant (fun _ _ hsafe h => h.hold hsafe) hstart).within account

def holder : PublicKey := ⟨1, 0, 1⟩

def merchant : PublicKey := ⟨2, 0, 2⟩

def someKernel : TreasuryKernel where
  governanceAuthority := ⟨3, 0, 3⟩
  kernelAddress := ⟨4, 0, 4⟩

def sharesToken : TokenContract := .new 7 "Shares" "SHR" 8 1000 false 0 holder

/-- A holder stakes, spends the rest, unstakes a part and has some of it burnt. -/
def someHoldings : List HoldingCall :=
  [.token (.mint holder 100), .lock someKernel someKernel.kernelAddress holder 80 .staking,
    .token (.transfer ⟨holder, holder, .user⟩ merchant 20),
    .release someKernel someKernel.kernelAddress holder 30 .unstaking,
    .debit someKernel someKernel.kernelAddress holder 10 .burn]

theorem locked_tokens_stay_while_the_rest_is_spent :
    let c := run hold sharesToken someHoldings
    c.lockedBalance holder ≤ c.balanceOf holder ∧ c.lockedBalance holder = 50 ∧ c.balanceOf holder = 70 := by
  have hstart : LocksHeld sharesToken := ⟨fun _ => Nat.le_refl 0, fun _ => Nat.zero_le _⟩
  have hsafe : Along hold LockSafe sharesToken someHoldings := by
    refine ⟨?_, trivial, ?_, trivial, fun _ => ?_, trivial⟩
    · change sharesToken.balanceOf holder + 100 ≤ u128Max
      decide +kernel
    · intro source hsource
      obtain rfl : holder = source := Option.some.inj hsource
      decide +kernel
    · decide +kernel
  exact ⟨locked_tokens_stay hstart someHoldings hsafe holder, by decide +kernel⟩

/-- A holder's transfer, a burn, and a burn by the kernel all take tokens that are locked. -/
theorem locked_tokens_leave :
    let staked := run hold sharesToken [.token (.mint holder 100), .lockBalance holder 80]
    let spent := hold staked (.token (.transfer ⟨holder, holder, .user⟩ merchant 100))
    let burned := hold staked (.token (.burn holder 100))
    let seized := hold staked (.debit someKernel someKernel.kernelAddress holder 100 .burn)
    (spent.lockedBalance holder = 80 ∧ spent.balanceOf holder = 0) ∧
      (burned.lockedBalance holder = 80 ∧ burned.balanceOf holder = 0) ∧
      (seized.lockedBalance holder = 80 ∧ seized.balanceOf holder = 0) := by
  decide +kernel

end SovereignNetwork.Treasury
