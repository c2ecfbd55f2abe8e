import SovereignNetwork.Execution.Token
import SovereignNetwork.Lib.Except
import SovereignNetwork.Lib.Totals

/-!
# Calls on a token contract

The calls of `TokenContract` that holders and the treasury make. Amounts are `u128`. A call that can fail returns the
contract it leaves where that is not the contract it found.
-/

namespace SovereignNetwork.Execution

open Lib

/-! ## The context of a call -/

inductive CallOrigin
  | user
  | contract
  | system
  deriving DecidableEq

/-- The part of the execution context that token calls read. -/
structure ExecutionContext where
  caller : PublicKey
  contract : PublicKey
  callOrigin : CallOrigin

/-- The account a call may debit. System calls have none. -/
def ExecutionContext.source (ctx : ExecutionContext) : Option PublicKey :=
  match ctx.callOrigin with
  | .user => some ctx.caller
  | .contract => some ctx.contract
  | .system => none

def ExecutionContext.withContract (caller contract : PublicKey) : ExecutionContext := ⟨caller, contract, .contract⟩

inductive TokenError
  | unauthorized
  | insufficientBalance
  | insufficientAllowance
  deriving DecidableEq

namespace TokenContract

/-! ## Creation -/

def newSovWithKernelAuthority (X : Externals) (kernelAuthority : PublicKey) : TokenContract :=
  { new X.generateLibTokenId "SOV Token" "SOV" 18 sovMaxSupply false 0 ⟨0, 0, X.keyIdOf 0⟩ with
    kernelMintAuthority := some kernelAuthority }

def newWelfareToken (X : Externals) (name symbol : String) (kernelAuthority : PublicKey) : TokenContract :=
  { new (X.generateCustomTokenId name symbol) name symbol 18 u128Max false 0 ⟨0, 0, X.keyIdOf 0⟩ with
    kernelMintAuthority := some kernelAuthority
    kernelOnlyMode := true }

/-! ## Transfers -/

def allowanceEntry (c : TokenContract) (owner spender : PublicKey) : Option Nat :=
  (c.allowances.lookup owner).bind fun spenders => spenders.lookup spender

def allowance (c : TokenContract) (owner spender : PublicKey) : Nat := (c.allowanceEntry owner spender).getD 0

def checkKernelOnly (c : TokenContract) (ctx : ExecutionContext) : Except TokenError Unit :=
  if c.kernelOnlyMode then
    match ctx.source with
    | none => throw .unauthorized
    | some callerKey => if c.kernelMintAuthority = some callerKey then pure () else throw .unauthorized
  else pure ()

/-- The recipient gets the whole amount, the burn is taken off the supply. The recipient's sum wraps. -/
def transfer (c : TokenContract) (ctx : ExecutionContext) (recipient : PublicKey) (amount : Nat) :
    Except TokenError (Nat × TokenContract) := do
  c.checkKernelOnly ctx
  let source ← okOr ctx.source .unauthorized
  let sourceBalance := c.balanceOf source
  if sourceBalance < amount then
    throw .insufficientBalance
  let burnAmount := if c.isDeflationary then min c.burnRate amount else 0
  let debited := c.setBalance source (sourceBalance - amount)
  let credited := debited.setBalance recipient (wrapU128 (debited.balanceOf recipient + amount))
  return (burnAmount, { credited with totalSupply := c.totalSupply - burnAmount })

def approve (c : TokenContract) (owner spender : PublicKey) (amount : Nat) : TokenContract :=
  { c with allowances := c.allowances.insert owner (((c.allowances.lookup owner).getD ∅).insert spender amount) }

/-- The allowance is reduced before the transfer, and stays reduced when the transfer fails. -/
def transferFrom (c : TokenContract) (ctx : ExecutionContext) (owner recipient : PublicKey) (amount : Nat) :
    Except TokenError Nat × TokenContract :=
  match ctx.source with
  | none => (.error .unauthorized, c)
  | some spender =>
    let allowance := c.allowance owner spender
    if allowance < amount then (.error .insufficientAllowance, c)
    else
      let reduced := c.approve owner spender (allowance - amount)
      match reduced.transfer (.withContract ctx.caller owner) recipient amount with
      | .error e => (.error e, reduced)
      | .ok (burnAmount, moved) => (.ok burnAmount, moved)

/-! ## Supply -/

def checkKernelAuthority (c : TokenContract) (caller : PublicKey) : Except String Unit :=
  match c.kernelMintAuthority with
  | some authority => if caller = authority then pure () else throw "Only Treasury Kernel can mint"
  | none => throw "Minting disabled"

/-- Both sums wrap. -/
def mintKernelOnly (c : TokenContract) (caller recipient : PublicKey) (amount : Nat) :
    Except String TokenContract := do
  c.checkKernelAuthority caller
  if wrapU128 (c.totalSupply + amount) > c.maxSupply then
    throw "Would exceed maximum supply"
  let balance := c.balanceOf recipient
  return { c with
    balances := c.balances.insert recipient (wrapU128 (balance + amount))
    totalSupply := wrapU128 (c.totalSupply + amount) }

def burn (c : TokenContract) (source : PublicKey) (amount : Nat) : Except String TokenContract := do
  if c.kernelOnlyMode then
    throw "Direct burning disabled: use Treasury Kernel"
  let balance := c.balanceOf source
  if balance < amount then
    throw "Insufficient balance to burn"
  return { c.setBalance source (balance - amount) with totalSupply := c.totalSupply - amount }

def totalBalanceSum (c : TokenContract) : Nat := c.balances.values.sum

/-! ## Treasury operations -/

def lockedBalance (c : TokenContract) (account : PublicKey) : Nat := (c.lockedBalances.lookup account).getD 0

def availableBalance (c : TokenContract) (account : PublicKey) : Nat := c.balanceOf account - c.lockedBalance account

def creditBalance (c : TokenContract) (recipient : PublicKey) (amount : Nat) : Except String TokenContract := do
  let newBalance ← okOr (checkedAddU128 (c.balanceOf recipient) amount) "Balance overflow"
  return c.setBalance recipient newBalance

def debitBalance (c : TokenContract) (source : PublicKey) (amount : Nat) : Except String TokenContract := do
  let balance := c.balanceOf source
  let locked := c.lockedBalance source
  let available := balance - locked
  if available < amount then
    throw s!"Insufficient available balance: have {balance}, locked {locked}, need {amount}"
  return c.setBalance source (balance - amount)

def lockBalance (c : TokenContract) (account : PublicKey) (amount : Nat) : Except String TokenContract := do
  let balance := c.balanceOf account
  let locked := c.lockedBalance account
  let available := balance - locked
  if available < amount then
    throw s!"Insufficient available balance to lock: have {balance}, locked {locked}, need {amount}"
  let newLocked ← okOr (checkedAddU128 locked amount) "Locked balance overflow"
  return { c with lockedBalances := c.lockedBalances.insert account newLocked }

def releaseBalance (c : TokenContract) (account : PublicKey) (amount : Nat) : Except String TokenContract := do
  let locked := c.lockedBalance account
  if locked < amount then
    throw s!"Insufficient locked balance to release: locked {locked}, need {amount}"
  let newLocked := locked - amount
  if newLocked = 0 then
    return { c with lockedBalances := c.lockedBalances.erase account }
  else
    return { c with lockedBalances := c.lockedBalances.insert account newLocked }

/-! ## Balances -/

section

variable {c c' : TokenContract} {a b account source recipient caller : PublicKey} {amount v : Nat}

theorem lockedBalance_setBalance (c : TokenContract) (a b : PublicKey) (v : Nat) :
    (c.setBalance a v).lockedBalance b = c.lockedBalance b := rfl

theorem weight_balance (c : TokenContract) (a : PublicKey) :
    weight (fun _ amount => amount) a (c.balances.lookup a) = c.balanceOf a := by
  unfold balanceOf
  cases c.balances.lookup a <;> rfl

theorem totalBalanceSum_setBalance (c : TokenContract) (a : PublicKey) (v : Nat) :
    (c.setBalance a v).totalBalanceSum + c.balanceOf a = c.totalBalanceSum + v := by
  have h := total_insert (w := fun _ amount => amount) c.balances a v
  rwa [weight_balance] at h

theorem balanceOf_le_sum (c : TokenContract) (a : PublicKey) : c.balanceOf a ≤ c.totalBalanceSum := by
  rw [← weight_balance]
  exact weight_le_total c.balances a

/-! ## What each call does -/

def minted (c : TokenContract) (recipient : PublicKey) (amount : Nat) : TokenContract :=
  { c.setBalance recipient (wrapU128 (c.balanceOf recipient + amount)) with
    totalSupply := wrapU128 (c.totalSupply + amount) }

def burned (c : TokenContract) (source : PublicKey) (amount : Nat) : TokenContract :=
  { c.setBalance source (c.balanceOf source - amount) with totalSupply := c.totalSupply - amount }

def moved (c : TokenContract) (source recipient : PublicKey) (amount : Nat) : TokenContract :=
  let debited := c.setBalance source (c.balanceOf source - amount)
  debited.setBalance recipient (wrapU128 (debited.balanceOf recipient + amount))

theorem mint_eq_ok (h : c.mint recipient amount = .ok c') :
    wrapU128 (c.totalSupply + amount) ≤ c.maxSupply ∧ c' = c.minted recipient amount := by
  simp only [mint, guard_eq_ok, pure_eq_ok] at h
  obtain ⟨-, hmax, rfl⟩ := h
  exact ⟨Nat.le_of_not_lt hmax, rfl⟩

theorem mintKernelOnly_eq_ok (h : c.mintKernelOnly caller recipient amount = .ok c') :
    wrapU128 (c.totalSupply + amount) ≤ c.maxSupply ∧ c' = c.minted recipient amount := by
  simp only [mintKernelOnly, bind_eq_ok, guard_eq_ok, pure_eq_ok] at h
  obtain ⟨-, -, hmax, rfl⟩ := h
  exact ⟨Nat.le_of_not_lt hmax, rfl⟩

theorem mintKernelOnly_of_authority (hcaller : c.kernelMintAuthority = some caller)
    (hmax : wrapU128 (c.totalSupply + amount) ≤ c.maxSupply) :
    c.mintKernelOnly caller recipient amount = .ok (c.minted recipient amount) := by
  have hauthority : c.checkKernelAuthority caller = .ok () := by
    rw [checkKernelAuthority, hcaller]
    exact if_pos rfl
  rw [mintKernelOnly, hauthority, if_neg (Nat.not_lt.mpr hmax)]
  rfl

theorem burn_eq_ok (h : c.burn source amount = .ok c') :
    amount ≤ c.balanceOf source ∧ c' = c.burned source amount := by
  simp only [burn, guard_eq_ok, pure_eq_ok] at h
  obtain ⟨-, hle, rfl⟩ := h
  exact ⟨Nat.le_of_not_lt hle, rfl⟩

def burnAmount (c : TokenContract) (amount : Nat) : Nat := if c.isDeflationary then min c.burnRate amount else 0

def transferred (c : TokenContract) (source recipient : PublicKey) (amount : Nat) : TokenContract :=
  { c.moved source recipient amount with totalSupply := c.totalSupply - c.burnAmount amount }

theorem transfer_eq_ok {ctx : ExecutionContext} {burnt : Nat} (h : c.transfer ctx recipient amount = .ok (burnt, c')) :
    ∃ source, ctx.source = some source ∧ amount ≤ c.balanceOf source ∧ c' = c.transferred source recipient amount := by
  simp only [transfer, bind_eq_ok, guard_eq_ok, pure_eq_ok, okOr_eq_ok, Prod.mk.injEq] at h
  obtain ⟨-, -, source, hsource, hle, -, rfl⟩ := h
  exact ⟨source, hsource, Nat.le_of_not_lt hle, rfl⟩

/-- The contract after locked tokens were released. An entry of zero goes. -/
def released (c : TokenContract) (account : PublicKey) (amount : Nat) : TokenContract :=
  let newLocked := c.lockedBalance account - amount
  { c with lockedBalances :=
      if newLocked = 0 then c.lockedBalances.erase account else c.lockedBalances.insert account newLocked }

def lockedBy (c : TokenContract) (account : PublicKey) (amount : Nat) : TokenContract :=
  { c with lockedBalances := c.lockedBalances.insert account (c.lockedBalance account + amount) }

theorem creditBalance_eq_ok : c.creditBalance recipient amount = .ok c' ↔
    c.balanceOf recipient + amount ≤ u128Max ∧ c' = c.setBalance recipient (c.balanceOf recipient + amount) := by
  simp only [creditBalance, bind_eq_ok, okOr_eq_ok, checkedAddU128_eq_some, pure_eq_ok]
  constructor
  · rintro ⟨_, ⟨hle, rfl⟩, rfl⟩
    exact ⟨hle, rfl⟩
  · rintro ⟨hle, rfl⟩
    exact ⟨_, ⟨hle, rfl⟩, rfl⟩

theorem debitBalance_eq_ok : c.debitBalance source amount = .ok c' ↔
    amount ≤ c.availableBalance source ∧ c' = c.setBalance source (c.balanceOf source - amount) := by
  simp only [debitBalance, guard_eq_ok, pure_eq_ok, not_lt]
  exact and_congr_right fun _ => eq_comm

theorem lockBalance_eq_ok : c.lockBalance account amount = .ok c' ↔
    amount ≤ c.availableBalance account ∧ c.lockedBalance account + amount ≤ u128Max ∧ c' = c.lockedBy account amount := by
  simp only [lockBalance, guard_eq_ok, bind_eq_ok, okOr_eq_ok, checkedAddU128_eq_some, pure_eq_ok, not_lt]
  constructor
  · rintro ⟨hle, _, ⟨hfits, rfl⟩, rfl⟩
    exact ⟨hle, hfits, rfl⟩
  · rintro ⟨hle, hfits, rfl⟩
    exact ⟨hle, _, ⟨hfits, rfl⟩, rfl⟩

theorem releaseBalance_eq_ok : c.releaseBalance account amount = .ok c' ↔
    amount ≤ c.lockedBalance account ∧ c' = c.released account amount := by
  simp only [releaseBalance, guard_eq_ok, not_lt, released]
  refine and_congr_right fun _ => ?_
  split <;> rw [pure_eq_ok] <;> exact eq_comm

theorem lockedBalance_lockedBy (c : TokenContract) (account b : PublicKey) (amount : Nat) :
    (c.lockedBy account amount).lockedBalance b =
      if b = account then c.lockedBalance account + amount else c.lockedBalance b := by
  unfold lockedBy
  rw [lockedBalance, HashMap.lookup_insert_eq_ite]
  split <;> rfl

theorem lockedBalance_released (c : TokenContract) (account b : PublicKey) (amount : Nat) :
    (c.released account amount).lockedBalance b =
      if b = account then c.lockedBalance account - amount else c.lockedBalance b := by
  unfold released
  by_cases hzero : c.lockedBalance account - amount = 0
  · simp only [hzero, if_true]
    rw [lockedBalance, HashMap.lookup_erase_eq_ite]
    split <;> rfl
  · simp only [hzero, if_false]
    rw [lockedBalance, HashMap.lookup_insert_eq_ite]
    split <;> rfl

end

end TokenContract

/-! ## Calls -/

inductive TokenCall
  | mint (recipient : PublicKey) (amount : Nat)
  | mintKernelOnly (caller recipient : PublicKey) (amount : Nat)
  | burn (source : PublicKey) (amount : Nat)
  | transfer (ctx : ExecutionContext) (recipient : PublicKey) (amount : Nat)
  | transferFrom (ctx : ExecutionContext) (owner recipient : PublicKey) (amount : Nat)
  | approve (owner spender : PublicKey) (amount : Nat)

namespace TokenContract

def call (c : TokenContract) : TokenCall → TokenContract
  | .mint recipient amount => (c.mint recipient amount).toOption.getD c
  | .mintKernelOnly caller recipient amount => (c.mintKernelOnly caller recipient amount).toOption.getD c
  | .burn source amount => (c.burn source amount).toOption.getD c
  | .transfer ctx recipient amount => ((c.transfer ctx recipient amount).toOption.map Prod.snd).getD c
  | .transferFrom ctx owner recipient amount => (c.transferFrom ctx owner recipient amount).2
  | .approve owner spender amount => c.approve owner spender amount

inductive Effect (c : TokenContract) : TokenCall → TokenContract → Prop
  | refused {call} : Effect c call c
  | mint {recipient amount} : wrapU128 (c.totalSupply + amount) ≤ c.maxSupply →
      Effect c (.mint recipient amount) (c.minted recipient amount)
  | mintKernelOnly {caller recipient amount} : wrapU128 (c.totalSupply + amount) ≤ c.maxSupply →
      Effect c (.mintKernelOnly caller recipient amount) (c.minted recipient amount)
  | burn {source amount} : amount ≤ c.balanceOf source → Effect c (.burn source amount) (c.burned source amount)
  | transfer {ctx source recipient amount} : ctx.source = some source → amount ≤ c.balanceOf source →
      Effect c (.transfer ctx recipient amount) (c.transferred source recipient amount)
  | allowanceOnly {ctx owner recipient amount spender rest} :
      Effect c (.transferFrom ctx owner recipient amount) (c.approve owner spender rest)
  | transferFrom {ctx owner recipient amount spender rest} : amount ≤ c.balanceOf owner →
      Effect c (.transferFrom ctx owner recipient amount)
        ((c.approve owner spender rest).transferred owner recipient amount)
  | approve {owner spender amount} : Effect c (.approve owner spender amount) (c.approve owner spender amount)

theorem effect_transferFrom (c : TokenContract) (ctx : ExecutionContext) (owner recipient : PublicKey) (amount : Nat) :
    Effect c (.transferFrom ctx owner recipient amount) (c.transferFrom ctx owner recipient amount).2 := by
  unfold transferFrom
  cases ctx.source with
  | none => exact .refused
  | some spender =>
    dsimp only
    split
    · exact .refused
    · split
      · exact .allowanceOnly
      · next htransfer =>
        obtain ⟨source, hsource, hle, rfl⟩ := transfer_eq_ok htransfer
        cases hsource
        exact .transferFrom hle

theorem effect_call (c : TokenContract) (call : TokenCall) : Effect c call (c.call call) := by
  cases call with
  | mint recipient amount =>
    cases h : c.mint recipient amount with
    | error e => simpa [TokenContract.call, h, Except.toOption] using Effect.refused
    | ok c' =>
      obtain ⟨hmax, rfl⟩ := mint_eq_ok h
      simpa [TokenContract.call, h, Except.toOption] using Effect.mint hmax
  | mintKernelOnly caller recipient amount =>
    cases h : c.mintKernelOnly caller recipient amount with
    | error e => simpa [TokenContract.call, h, Except.toOption] using Effect.refused
    | ok c' =>
      obtain ⟨hmax, rfl⟩ := mintKernelOnly_eq_ok h
      simpa [TokenContract.call, h, Except.toOption] using Effect.mintKernelOnly hmax
  | burn source amount =>
    cases h : c.burn source amount with
    | error e => simpa [TokenContract.call, h, Except.toOption] using Effect.refused
    | ok c' =>
      obtain ⟨hle, rfl⟩ := burn_eq_ok h
      simpa [TokenContract.call, h, Except.toOption] using Effect.burn hle
  | transfer ctx recipient amount =>
    cases h : c.transfer ctx recipient amount with
    | error e => simpa [TokenContract.call, h, Except.toOption] using Effect.refused
    | ok r =>
      obtain ⟨source, hsource, hle, hr⟩ := transfer_eq_ok h
      simpa [TokenContract.call, h, Except.toOption, hr] using Effect.transfer hsource hle
  | transferFrom ctx owner recipient amount => exact effect_transferFrom c ctx owner recipient amount
  | approve owner spender amount => exact .approve

end TokenContract

end SovereignNetwork.Execution
