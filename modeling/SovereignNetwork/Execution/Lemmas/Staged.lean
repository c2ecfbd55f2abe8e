import SovereignNetwork.Execution.Sequential
import SovereignNetwork.Lib.Totals

/-!
# What the store's operations stage

A chain state gives each key its value. Inside a block there are two of them: the committed one, which the getters
read, and the latest one, which the setters change.
-/

namespace SovereignNetwork.Execution

open Lib Mutator

abbrev ChainState := (k : Key) → Option k.Val

/-- The state that a map of entries stands for. -/
def committed (m : AList Key.Val) : ChainState := fun k => m.lookup k

/-- The state that the commit of a batch would leave. -/
def staged (s : AList Key.Val) (b : Batch Key.Val) : ChainState := fun k => latest s b k

namespace ChainState

variable (σ : ChainState)

def utxo (op : OutPoint) : Option Utxo := σ (.utxo op)

def balance (t : TokenId) (a : Address) : Nat :=
  let v : Option Nat := σ (.tokenBalance t a)
  v.getD 0

def nonce (t : TokenId) (a : Address) : Nat :=
  let v : Option Nat := σ (.tokenNonce t a)
  v.getD 0

def contract (t : TokenId) : Option TokenContract := σ (.tokenContract t)

def supply (t : TokenId) : Option Nat := σ (.tokenSupply t)

def econ : BondingCurveEconomicState :=
  let v : Option BondingCurveEconomicState := σ .cbeEconomicState
  v.getD .default

def account (keyId : Bytes 32) : BondingCurveAccountState :=
  let v : Option BondingCurveAccountState := σ (.cbeAccount keyId)
  v.getD ⟨keyId, 0, 0, 0⟩

def stake (dao staker : Address) : Option DaoStakeRecord := σ (.daoStake dao staker)

def code (contract : Bytes 32) : Option (List UInt8) := σ (.contractCode contract)

def storage (contract : Bytes 32) (key : List UInt8) : Option (List UInt8) := σ (.contractStorage contract key)

variable {σ τ : ChainState}

theorem balance_eq {t : TokenId} {a : Address} {v : Option Nat} (h : σ (.tokenBalance t a) = v) :
    σ.balance t a = v.getD 0 := by
  subst h
  rfl

theorem balance_congr {t : TokenId} {a : Address} (h : σ (.tokenBalance t a) = τ (.tokenBalance t a)) :
    σ.balance t a = τ.balance t a := by
  rw [balance, h, balance]

end ChainState

theorem staged_insert_self (s : AList Key.Val) (b : Batch Key.Val) (k : Key) (v : Option k.Val) :
    staged s (b.insert k v) k = v := latest_insert_self s b k v

theorem staged_of_lookup {s : AList Key.Val} {b : Batch Key.Val} {k : Key} (h : b.lookup k = none) :
    staged s b k = committed s k := by
  rw [staged, latest, h, Option.getD_none, committed]

theorem staged_of_notMem {s : AList Key.Val} {b : Batch Key.Val} {k : Key} (h : k ∉ b) : staged s b k = committed s k :=
  staged_of_lookup (AList.lookup_eq_none.mpr h)

/-- What is stored for an amount: nothing for zero. -/
def stored (v : Nat) : Option Nat := if v = 0 then none else some v

@[simp] theorem stored_getD (v : Nat) : (stored v).getD 0 = v := by
  by_cases hv : v = 0 <;> simp [stored, hv]

/-! ## Getters and setters -/

section

variable {s : AList Key.Val} {b b' : Batch Key.Val} {ε : Type}

@[simp] theorem stage_getUtxo (op : OutPoint) :
    (Sled.getUtxo op : Prog Key.Val ε _).stage sledView s b = .ok ((committed s).utxo op, b) := rfl

@[simp] theorem stage_getTokenBalance (t : TokenId) (a : Address) :
    (Sled.getTokenBalance t a : Prog Key.Val ε _).stage sledView s b = .ok ((committed s).balance t a, b) := rfl

@[simp] theorem stage_setTokenBalance (t : TokenId) (a : Address) (v : Nat) :
    (Sled.setTokenBalance t a v : Prog Key.Val ε _).stage sledView s b = .ok ((), b.insert (.tokenBalance t a) (stored v)) := by
  by_cases hv : v = 0 <;> simp only [Sled.setTokenBalance, stored, hv, if_true, if_false] <;> rfl

@[simp] theorem stage_getTokenNonce (t : TokenId) (a : Address) :
    (Sled.getTokenNonce t a : Prog Key.Val ε _).stage sledView s b = .ok ((committed s).nonce t a, b) := rfl

theorem stage_setTokenNonce (t : TokenId) (a : Address) (v : Nat) :
    (Sled.setTokenNonce t a v : Prog Key.Val ε _).stage sledView s b = .ok ((), b.insert (.tokenNonce t a) (stored v)) := by
  by_cases hv : v = 0 <;> simp only [Sled.setTokenNonce, stored, hv, if_true, if_false] <;> rfl

@[simp] theorem stage_incrementTokenNonce (t : TokenId) (a : Address) :
    (Sled.incrementTokenNonce t a : Prog Key.Val ε _).stage sledView s b =
      .ok (wrapU64 ((committed s).nonce t a + 1),
        b.insert (.tokenNonce t a) (stored (wrapU64 ((committed s).nonce t a + 1)))) :=
  Prog.stage_bind_eq_ok.mpr ⟨_, _, stage_getTokenNonce t a,
    Prog.stage_bind_eq_ok.mpr ⟨_, _, stage_setTokenNonce t a _, rfl⟩⟩

@[simp] theorem stage_getTokenContract (t : TokenId) :
    (Sled.getTokenContract t : Prog Key.Val ε _).stage sledView s b = .ok ((committed s).contract t, b) := rfl

@[simp] theorem stage_putTokenContract (c : TokenContract) :
    (Sled.putTokenContract c : Prog Key.Val ε _).stage sledView s b = .ok ((), b.insert (.tokenContract c.tokenId) (some c)) :=
  rfl

@[simp] theorem stage_getTokenSupply (t : TokenId) :
    (Sled.getTokenSupply t : Prog Key.Val ε _).stage sledView s b = .ok ((committed s).supply t, b) := rfl

@[simp] theorem stage_putTokenSupply (t : TokenId) (v : Nat) :
    (Sled.putTokenSupply t v : Prog Key.Val ε _).stage sledView s b = .ok ((), b.insert (.tokenSupply t) (some v)) := rfl

@[simp] theorem stage_getCbeEconomicState :
    (Sled.getCbeEconomicState : Prog Key.Val ε _).stage sledView s b = .ok ((committed s).econ, b) := rfl

@[simp] theorem stage_putCbeEconomicState (econ : BondingCurveEconomicState) :
    (Sled.putCbeEconomicState econ : Prog Key.Val ε _).stage sledView s b =
      .ok ((), b.insert .cbeEconomicState (some econ)) := rfl

@[simp] theorem stage_getCbeAccountState (keyId : Bytes 32) :
    (Sled.getCbeAccountState keyId : Prog Key.Val ε _).stage sledView s b = .ok ((committed s).account keyId, b) := rfl

@[simp] theorem stage_putCbeAccountState (keyId : Bytes 32) (a : BondingCurveAccountState) :
    (Sled.putCbeAccountState keyId a : Prog Key.Val ε _).stage sledView s b =
      .ok ((), b.insert (.cbeAccount keyId) (some a)) := rfl

@[simp] theorem stage_getDaoStake (dao staker : Address) :
    (Sled.getDaoStake dao staker : Prog Key.Val ε _).stage sledView s b = .ok ((committed s).stake dao staker, b) := rfl

@[simp] theorem stage_putDaoStake (r : DaoStakeRecord) :
    (Sled.putDaoStake r : Prog Key.Val ε _).stage sledView s b =
      .ok ((), b.insert (.daoStake r.sectorDaoKeyId r.staker) (some r)) := rfl

@[simp] theorem stage_deleteDaoStake (dao staker : Address) :
    (Sled.deleteDaoStake dao staker : Prog Key.Val ε _).stage sledView s b =
      .ok ((), b.insert (.daoStake dao staker) none) := rfl

@[simp] theorem stage_getContractStorage (contract : Bytes 32) (key : List UInt8) :
    (Sled.getContractStorage contract key : Prog Key.Val ε _).stage sledView s b =
      .ok ((committed s).storage contract key, b) := rfl

@[simp] theorem stage_putContractStorage (contract : Bytes 32) (key value : List UInt8) :
    (Sled.putContractStorage contract key value : Prog Key.Val ε _).stage sledView s b =
      .ok ((), b.insert (.contractStorage contract key) (some value)) := rfl

@[simp] theorem stage_requireSome_eq_ok {α : Type} {e : TxApplyError} {v : Option α} {r : α × Batch Key.Val} :
    (requireSome e v).stage sledView s b = .ok r ↔ v = some r.1 ∧ b = r.2 := by
  cases v with
  | none => simp [requireSome]
  | some a => simp [requireSome, Prod.ext_iff]

@[simp] theorem stage_checkedAdd_eq_ok {x y : Nat} {r : Nat × Batch Key.Val} :
    (checkedAdd x y).stage sledView s b = .ok r ↔ x + y ≤ u128Max ∧ (x + y, b) = r := by
  unfold checkedAdd checkedAddU128
  by_cases h : x + y ≤ u128Max <;> simp [h]

end

/-! ## What they ensure -/

section

variable {W : (k : Key) → Option k.Val → Prop} {s : AList Key.Val} {ε : Type}

@[simp] theorem ensures_putKey {k : Key} {v : k.Val} {Q : Unit → Prop} :
    (Sled.putKey k v : Prog Key.Val ε _).Ensures sledView s W Q ↔ W k (some v) ∧ Q () := Iff.rfl

@[simp] theorem ensures_deleteKey {k : Key} {Q : Unit → Prop} :
    (Sled.deleteKey k : Prog Key.Val ε _).Ensures sledView s W Q ↔ W k none ∧ Q () := Iff.rfl

@[simp] theorem ensures_getUtxo {op : OutPoint} {Q : Option Utxo → Prop} :
    (Sled.getUtxo op : Prog Key.Val ε _).Ensures sledView s W Q ↔ Q ((committed s).utxo op) :=
  ⟨fun h => h none, fun h _ => h⟩

@[simp] theorem ensures_getTokenBalance {t : TokenId} {a : Address} {Q : Nat → Prop} :
    (Sled.getTokenBalance t a : Prog Key.Val ε _).Ensures sledView s W Q ↔ Q ((committed s).balance t a) :=
  ⟨fun h => h none, fun h _ => h⟩

@[simp] theorem ensures_setTokenBalance {t : TokenId} {a : Address} {v : Nat} {Q : Unit → Prop} :
    (Sled.setTokenBalance t a v : Prog Key.Val ε _).Ensures sledView s W Q ↔
      W (.tokenBalance t a) (stored v) ∧ Q () := by
  by_cases hv : v = 0 <;> simp only [Sled.setTokenBalance, stored, hv, if_true, if_false] <;> rfl

@[simp] theorem ensures_getTokenNonce {t : TokenId} {a : Address} {Q : Nat → Prop} :
    (Sled.getTokenNonce t a : Prog Key.Val ε _).Ensures sledView s W Q ↔ Q ((committed s).nonce t a) :=
  ⟨fun h => h none, fun h _ => h⟩

@[simp] theorem ensures_incrementTokenNonce {t : TokenId} {a : Address} {Q : Nat → Prop} :
    (Sled.incrementTokenNonce t a : Prog Key.Val ε _).Ensures sledView s W Q ↔
      W (.tokenNonce t a) (stored (wrapU64 ((committed s).nonce t a + 1))) ∧
        Q (wrapU64 ((committed s).nonce t a + 1)) := by
  rw [Sled.incrementTokenNonce, Prog.ensures_bind, ensures_getTokenNonce]
  by_cases hv : wrapU64 ((committed s).nonce t a + 1) = 0 <;>
    simp only [Sled.setTokenNonce, stored, hv, if_true, if_false] <;> rfl

@[simp] theorem ensures_getTokenContract {t : TokenId} {Q : Option TokenContract → Prop} :
    (Sled.getTokenContract t : Prog Key.Val ε _).Ensures sledView s W Q ↔ Q ((committed s).contract t) :=
  ⟨fun h => h none, fun h _ => h⟩

@[simp] theorem ensures_putTokenContract {c : TokenContract} {Q : Unit → Prop} :
    (Sled.putTokenContract c : Prog Key.Val ε _).Ensures sledView s W Q ↔ W (.tokenContract c.tokenId) (some c) ∧ Q () :=
    Iff.rfl

@[simp] theorem ensures_getTokenSupply {t : TokenId} {Q : Option Nat → Prop} :
    (Sled.getTokenSupply t : Prog Key.Val ε _).Ensures sledView s W Q ↔ Q ((committed s).supply t) :=
  ⟨fun h => h none, fun h _ => h⟩

@[simp] theorem ensures_putTokenSupply {t : TokenId} {v : Nat} {Q : Unit → Prop} :
    (Sled.putTokenSupply t v : Prog Key.Val ε _).Ensures sledView s W Q ↔ W (.tokenSupply t) (some v) ∧ Q () := Iff.rfl

@[simp] theorem ensures_putWalletProjection {id : Hash} {r : WalletProjectionRecord} {Q : Unit → Prop} :
    (Sled.putWalletProjection id r : Prog Key.Val ε _).Ensures sledView s W Q ↔ W (.wallet id) (some r) ∧ Q () := Iff.rfl

@[simp] theorem ensures_getCbeEconomicState {Q : BondingCurveEconomicState → Prop} :
    (Sled.getCbeEconomicState : Prog Key.Val ε _).Ensures sledView s W Q ↔ Q ((committed s).econ) :=
  ⟨fun h => h none, fun h _ => h⟩

@[simp] theorem ensures_putCbeEconomicState {econ : BondingCurveEconomicState} {Q : Unit → Prop} :
    (Sled.putCbeEconomicState econ : Prog Key.Val ε _).Ensures sledView s W Q ↔ W .cbeEconomicState (some econ) ∧ Q () :=
    Iff.rfl

@[simp] theorem ensures_getCbeAccountState {keyId : Bytes 32} {Q : BondingCurveAccountState → Prop} :
    (Sled.getCbeAccountState keyId : Prog Key.Val ε _).Ensures sledView s W Q ↔ Q ((committed s).account keyId) :=
  ⟨fun h => h none, fun h _ => h⟩

@[simp] theorem ensures_putCbeAccountState {keyId : Bytes 32} {a : BondingCurveAccountState} {Q : Unit → Prop} :
    (Sled.putCbeAccountState keyId a : Prog Key.Val ε _).Ensures sledView s W Q ↔ W (.cbeAccount keyId) (some a) ∧ Q () :=
    Iff.rfl

@[simp] theorem ensures_getDaoStake {dao staker : Address} {Q : Option DaoStakeRecord → Prop} :
    (Sled.getDaoStake dao staker : Prog Key.Val ε _).Ensures sledView s W Q ↔ Q ((committed s).stake dao staker) :=
  ⟨fun h => h none, fun h _ => h⟩

@[simp] theorem ensures_putDaoStake {r : DaoStakeRecord} {Q : Unit → Prop} :
    (Sled.putDaoStake r : Prog Key.Val ε _).Ensures sledView s W Q ↔
      W (.daoStake r.sectorDaoKeyId r.staker) (some r) ∧ Q () := Iff.rfl

@[simp] theorem ensures_deleteDaoStake {dao staker : Address} {Q : Unit → Prop} :
    (Sled.deleteDaoStake dao staker : Prog Key.Val ε _).Ensures sledView s W Q ↔ W (.daoStake dao staker) none ∧ Q () :=
    Iff.rfl

@[simp] theorem ensures_getContractCode {contract : Bytes 32} {Q : Option (List UInt8) → Prop} :
    (Sled.getContractCode contract : Prog Key.Val ε _).Ensures sledView s W Q ↔ Q ((committed s).code contract) :=
  ⟨fun h => h none, fun h _ => h⟩

@[simp] theorem ensures_putContractCode {contract : Bytes 32} {code : List UInt8} {Q : Unit → Prop} :
    (Sled.putContractCode contract code : Prog Key.Val ε _).Ensures sledView s W Q ↔
      W (.contractCode contract) (some code) ∧ Q () := Iff.rfl

@[simp] theorem ensures_getContractStorage {contract : Bytes 32} {key : List UInt8} {Q : Option (List UInt8) → Prop} :
    (Sled.getContractStorage contract key : Prog Key.Val ε _).Ensures sledView s W Q ↔ Q ((committed s).storage contract key) :=
  ⟨fun h => h none, fun h _ => h⟩

@[simp] theorem ensures_putContractStorage {contract : Bytes 32} {key value : List UInt8} {Q : Unit → Prop} :
    (Sled.putContractStorage contract key value : Prog Key.Val ε _).Ensures sledView s W Q ↔
      W (.contractStorage contract key) (some value) ∧ Q () := Iff.rfl

@[simp] theorem ensures_requireSome {α : Type} {e : TxApplyError} {v : Option α} {Q : α → Prop} :
    (requireSome e v).Ensures sledView s W Q ↔ ∀ a, v = some a → Q a := by
  cases v <;> simp [requireSome]

@[simp] theorem ensures_checkedAdd {x y : Nat} {Q : Nat → Prop} :
    (checkedAdd x y).Ensures sledView s W Q ↔ (x + y ≤ u128Max → Q (x + y)) := by
  unfold checkedAdd checkedAddU128
  by_cases h : x + y ≤ u128Max <;> simp [h]

end

end SovereignNetwork.Execution
