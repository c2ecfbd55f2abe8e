import SovereignNetwork.Lib.Run
import SovereignNetwork.Tokens.Contract

/-!
# The supply of a token

Over a run of calls by holders, the balances of a contract add up to its supply.
-/

namespace SovereignNetwork.Execution

open Lib

/-! ## Runs -/

namespace TokenContract

/-- The contracts a run starts from. The initial supply of a custom token is a `u64`. -/
inductive Created : TokenContract → Prop
  | new (tokenId : TokenId) (name symbol : String) (decimals maxSupply : Nat) (isDeflationary : Bool) (burnRate : Nat)
      (creator : PublicKey) :
      Created (new tokenId name symbol decimals maxSupply isDeflationary burnRate creator)
  | newCustom (X : Externals) (name symbol : String) (initialSupply : Nat) (creator : PublicKey)
      (h : initialSupply < 2 ^ 64) :
      Created (newCustom X name symbol initialSupply creator)
  | newSovWithKernelAuthority (X : Externals) (kernelAuthority : PublicKey) :
      Created (newSovWithKernelAuthority X kernelAuthority)
  | newWelfareToken (X : Externals) (name symbol : String) (kernelAuthority : PublicKey) :
      Created (newWelfareToken X name symbol kernelAuthority)

/-- Condition on a call: a mint keeps the supply within `u128`, and a transfer burns nothing. -/
def SupplySafe (c : TokenContract) : TokenCall → Prop
  | .mint _ amount => c.totalSupply + amount ≤ u128Max
  | .mintKernelOnly _ _ amount => c.totalSupply + amount ≤ u128Max
  | .transfer _ _ amount => c.isDeflationary = false ∨ c.burnRate = 0 ∨ amount = 0
  | .transferFrom _ _ _ amount => c.isDeflationary = false ∨ c.burnRate = 0 ∨ amount = 0
  | .burn _ _ => True
  | .approve _ _ _ => True

instance (c : TokenContract) (call : TokenCall) : Decidable (c.SupplySafe call) := by
  cases call <;> unfold SupplySafe <;> infer_instance

/-- The balances add up to the supply, which is within its limit. -/
structure Backed (c : TokenContract) : Prop where
  sum : c.totalBalanceSum = c.totalSupply
  le_max : c.totalSupply ≤ c.maxSupply
  le_u128 : c.totalSupply ≤ u128Max

/-! ## What a call keeps -/

variable {c c' : TokenContract} {source recipient owner : PublicKey} {amount : Nat}

theorem Backed.minted (h : Backed c) (hsafe : c.totalSupply + amount ≤ u128Max)
    (hmax : wrapU128 (c.totalSupply + amount) ≤ c.maxSupply) : Backed (c.minted recipient amount) := by
  have hsupply : (c.minted recipient amount).totalSupply = c.totalSupply + amount := wrapU128_of_le hsafe
  have hbalance : wrapU128 (c.balanceOf recipient + amount) = c.balanceOf recipient + amount := by
    have hle := c.balanceOf_le_sum recipient
    rw [h.sum] at hle
    exact wrapU128_of_le (Nat.le_trans (Nat.add_le_add_right hle amount) hsafe)
  have hsum := c.totalBalanceSum_setBalance recipient (wrapU128 (c.balanceOf recipient + amount))
  rw [hbalance, h.sum] at hsum
  refine ⟨?_, ?_, hsupply ▸ hsafe⟩
  · rw [hsupply]
    change (c.setBalance recipient (wrapU128 (c.balanceOf recipient + amount))).totalBalanceSum = _
    rw [hbalance]
    omega
  · exact hmax

theorem Backed.burned (h : Backed c) (hle : amount ≤ c.balanceOf source) : Backed (c.burned source amount) := by
  have hsum := c.totalBalanceSum_setBalance source (c.balanceOf source - amount)
  have hbalance := c.balanceOf_le_sum source
  have hbacked := h.sum
  refine ⟨?_, Nat.le_trans (Nat.sub_le _ _) h.le_max, Nat.le_trans (Nat.sub_le _ _) h.le_u128⟩
  change (c.setBalance source (c.balanceOf source - amount)).totalBalanceSum = c.totalSupply - amount
  omega

/-- A transfer moves the amount, also to the sender itself: the recipient's balance is read after the debit. -/
theorem sum_moved (hle : amount ≤ c.balanceOf source) (hmax : c.totalBalanceSum ≤ u128Max) :
    (c.moved source recipient amount).totalBalanceSum = c.totalBalanceSum := by
  let debited := c.setBalance source (c.balanceOf source - amount)
  have hdebit : debited.totalBalanceSum + c.balanceOf source = c.totalBalanceSum + (c.balanceOf source - amount) :=
    c.totalBalanceSum_setBalance source _
  have hrecipient := debited.balanceOf_le_sum recipient
  have hwrap : wrapU128 (debited.balanceOf recipient + amount) = debited.balanceOf recipient + amount :=
    wrapU128_of_le (by omega)
  have hcredit := debited.totalBalanceSum_setBalance recipient (wrapU128 (debited.balanceOf recipient + amount))
  change (debited.setBalance recipient (wrapU128 (debited.balanceOf recipient + amount))).totalBalanceSum = _
  omega

theorem burnAmount_eq_zero (h : c.isDeflationary = false ∨ c.burnRate = 0 ∨ amount = 0) : c.burnAmount amount = 0 := by
  unfold burnAmount
  rcases h with hdefl | hrate | hamount
  · simp [hdefl]
  · simp [hrate]
  · simp [hamount]

theorem Backed.transferred (h : Backed c) (hsafe : c.isDeflationary = false ∨ c.burnRate = 0 ∨ amount = 0)
    (hle : amount ≤ c.balanceOf source) : Backed (c.transferred source recipient amount) := by
  have hsum : (c.moved source recipient amount).totalBalanceSum = c.totalBalanceSum :=
    sum_moved hle (h.sum ▸ h.le_u128)
  have hsupply : (c.transferred source recipient amount).totalSupply = c.totalSupply := by
    change c.totalSupply - c.burnAmount amount = _
    rw [burnAmount_eq_zero hsafe, Nat.sub_zero]
  exact ⟨hsum.trans (h.sum.trans hsupply.symm), hsupply ▸ h.le_max, hsupply ▸ h.le_u128⟩

theorem Backed.approve {spender : PublicKey} (h : Backed c) : Backed (c.approve owner spender amount) :=
  ⟨h.sum, h.le_max, h.le_u128⟩

theorem Backed.effect {call : TokenCall} (h : Backed c) (hsafe : c.SupplySafe call) (heffect : Effect c call c') :
    Backed c' := by
  cases heffect with
  | refused => exact h
  | mint hmax => exact h.minted hsafe hmax
  | mintKernelOnly hmax => exact h.minted hsafe hmax
  | burn hle => exact h.burned hle
  | transfer hsource hle => exact h.transferred hsafe hle
  | allowanceOnly => exact h.approve
  | transferFrom hle => exact h.approve.transferred hsafe hle
  | approve => exact h.approve

theorem Backed.new {tokenId : TokenId} {name symbol : String} {decimals maxSupply burnRate : Nat} {isDeflationary : Bool}
    {creator : PublicKey} :
    Backed (TokenContract.new tokenId name symbol decimals maxSupply isDeflationary burnRate creator) :=
  ⟨rfl, Nat.zero_le _, Nat.zero_le _⟩

theorem Backed.of_created (h : Created c) : Backed c := by
  cases h with
  | new => exact .new
  | newCustom X name symbol initialSupply creator hlt =>
    unfold newCustom
    dsimp only
    split
    · split
      · next hmint =>
        obtain ⟨hmax, rfl⟩ := mint_eq_ok hmint
        refine Backed.new.minted ?_ hmax
        change 0 + initialSupply ≤ 2 ^ 128 - 1
        omega
      · exact .new
    · exact .new
  | newSovWithKernelAuthority X kernelAuthority => exact ⟨rfl, Nat.zero_le _, Nat.zero_le _⟩
  | newWelfareToken X name symbol kernelAuthority => exact ⟨rfl, Nat.zero_le _, Nat.zero_le _⟩

end TokenContract

/-! ## Whole runs -/

/-- From any new contract, calls that keep within `u128` and burn nothing on the way leave the balances adding up to the
supply, within its maximum. -/
theorem balances_add_up_to_supply {c : TokenContract} (hc : TokenContract.Created c) (calls : List TokenCall)
    (hsafe : Along TokenContract.call TokenContract.SupplySafe c calls) :
    let c' := run TokenContract.call c calls
    c'.totalBalanceSum = c'.totalSupply ∧ c'.totalSupply ≤ c'.maxSupply := by
  have hstep : ∀ c call, TokenContract.SupplySafe c call → TokenContract.Backed c → (c.call call).Backed :=
    fun c call hsafe h => h.effect hsafe (TokenContract.effect_call c call)
  have h := hsafe.invariant hstep (TokenContract.Backed.of_created hc)
  exact ⟨h.sum, h.le_max⟩

def alice : PublicKey := ⟨1, 0, 1⟩

def bob : PublicKey := ⟨2, 0, 2⟩

def someTransfers : List TokenCall :=
  [.mint alice 600, .transfer ⟨alice, alice, .user⟩ bob 200, .transfer ⟨bob, bob, .user⟩ bob 50,
    .approve bob alice 30, .transferFrom ⟨alice, alice, .user⟩ bob alice 30, .burn alice 100]

theorem balances_add_up_to_supply_after_transfers :
    let c := TokenContract.new 7 "Token" "TOK" 8 1000 false 0 alice
    let c' := run TokenContract.call c someTransfers
    Along TokenContract.call TokenContract.SupplySafe c someTransfers ∧
      c'.totalBalanceSum = c'.totalSupply ∧ c'.totalSupply = 500 := by
  have hsafe : Along TokenContract.call TokenContract.SupplySafe
      (TokenContract.new 7 "Token" "TOK" 8 1000 false 0 alice) someTransfers := by decide +kernel
  exact ⟨hsafe, (balances_add_up_to_supply (.new ..) someTransfers hsafe).1, by decide +kernel⟩

/-- A deflationary transfer takes the burn off the supply only, and a mint that wraps the supply is accepted. -/
theorem transfer_and_mint_lose_supply :
    let deflationary := run TokenContract.call (TokenContract.new 7 "Token" "TOK" 8 10000 true 10 alice)
      [.mint alice 1000, .transfer ⟨alice, alice, .user⟩ bob 100]
    let unbounded := run TokenContract.call (TokenContract.new 7 "Token" "TOK" 8 u128Max false 0 alice)
      [.mint alice u128Max, .mint bob 5]
    deflationary.totalBalanceSum = 1000 ∧ deflationary.totalSupply = 990 ∧
      unbounded.totalBalanceSum = u128Max + 5 ∧ unbounded.totalSupply = 4 := by
  decide +kernel

end SovereignNetwork.Execution
