import SovereignNetwork.Execution.Config

/-!
# Token contracts

The part of `TokenContract` that block execution uses.
-/

namespace SovereignNetwork.Execution

open Lib

structure TokenContract where
  tokenId : TokenId
  name : String
  symbol : String
  decimals : Nat
  totalSupply : Nat
  maxSupply : Nat
  isDeflationary : Bool
  burnRate : Nat
  balances : HashMap PublicKey Nat
  allowances : HashMap PublicKey (HashMap PublicKey Nat)
  creator : PublicKey
  kernelMintAuthority : Option PublicKey
  lockedBalances : HashMap PublicKey Nat
  kernelOnlyMode : Bool
  creatorDid : Option String
  feeScheduleBps : Option Nat
  deriving DecidableEq

def sovMaxSupply : Nat := 1000000000000 * 10 ^ 18

namespace TokenContract

def new (tokenId : TokenId) (name symbol : String) (decimals maxSupply : Nat) (isDeflationary : Bool) (burnRate : Nat)
    (creator : PublicKey) : TokenContract where
  tokenId := tokenId
  name := name
  symbol := symbol
  decimals := decimals
  totalSupply := 0
  maxSupply := maxSupply
  isDeflationary := isDeflationary
  burnRate := burnRate
  balances := ∅
  allowances := ∅
  creator := creator
  kernelMintAuthority := none
  lockedBalances := ∅
  kernelOnlyMode := false
  creatorDid := none
  feeScheduleBps := none

def newSovNative (X : Externals) : TokenContract :=
  new X.generateLibTokenId "Sovereign" "SOV" 18 sovMaxSupply false 0 ⟨0, 0, X.keyIdOf 0⟩

def balanceOf (c : TokenContract) (account : PublicKey) : Nat := (c.balances.lookup account).getD 0

def setBalance (c : TokenContract) (account : PublicKey) (amount : Nat) : TokenContract :=
  { c with balances := c.balances.insert account amount }

theorem balanceOf_setBalance (c : TokenContract) (a b : PublicKey) (v : Nat) :
    (c.setBalance a v).balanceOf b = if b = a then v else c.balanceOf b := by
  unfold balanceOf setBalance
  rw [HashMap.lookup_insert_eq_ite]
  split <;> rfl

/-- Both sums wrap. -/
def mint (c : TokenContract) (recipient : PublicKey) (amount : Nat) : Except String TokenContract := do
  if c.kernelOnlyMode then
    throw "Direct minting disabled: use Treasury Kernel"
  if wrapU128 (c.totalSupply + amount) > c.maxSupply then
    throw "Would exceed maximum supply"
  let balance := c.balanceOf recipient
  return { c with
    balances := c.balances.insert recipient (wrapU128 (balance + amount))
    totalSupply := wrapU128 (c.totalSupply + amount) }

/-- A failed mint of the initial supply is ignored. -/
def newCustom (X : Externals) (name symbol : String) (initialSupply : Nat) (creator : PublicKey) : TokenContract :=
  let token := new (X.generateCustomTokenId name symbol) name symbol 8 (2 ^ 64 - 1) false 0 creator
  if initialSupply > 0 then
    match token.mint creator initialSupply with
    | .ok token => token
    | .error _ => token
  else token

end TokenContract

end SovereignNetwork.Execution
