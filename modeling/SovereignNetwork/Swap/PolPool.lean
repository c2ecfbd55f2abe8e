import SovereignNetwork.Lib.Except
import SovereignNetwork.Types

/-!
# The pool of protocol-owned liquidity

The constant product pool `PolPool`, which is set up once and then only traded against. The fee stays in the reserves. The
reserve that is left is rounded down, which is in the trader's favour. A call returns its result together with the pool it
leaves.
-/

namespace SovereignNetwork.Swap

open Lib

/-! ## Data -/

inductive PolPoolError
  | alreadyInitialized
  | notInitialized
  | zeroInput
  | zeroOutput
  | insufficientLiquidity
  | slippageExceeded
  | overflow
  | insufficientInitialLiquidity
  deriving DecidableEq

structure PolPool where
  tokenId : Bytes 32
  initialized : Bool
  feeBps : Nat
  sovReserve : Nat
  tokenReserve : Nat
  k : Nat
  totalFeesSov : Nat
  deriving DecidableEq

def polMinimumInitialLiquidity : Nat := 1000000

def polFeeBps : Nat := 30

namespace PolPool

/-! ## Creation -/

def new (tokenId : Bytes 32) : PolPool := ⟨tokenId, false, polFeeBps, 0, 0, 0, 0⟩

/-- `initialize` -/
def initializePool (pool : PolPool) (initialSov initialToken : Nat) : Except PolPoolError PolPool := do
  if pool.initialized then
    throw .alreadyInitialized
  if initialSov < polMinimumInitialLiquidity ∨ initialToken < polMinimumInitialLiquidity then
    throw .insufficientInitialLiquidity
  let k ← okOr (checkedMulU128 initialSov initialToken) .overflow
  return { pool with sovReserve := initialSov, tokenReserve := initialToken, k := k, initialized := true }

/-! ## Swaps -/

def requireInitialized (pool : PolPool) : Except PolPoolError Unit := do
  if ¬ pool.initialized then
    throw .notInitialized

def feeAmount (pool : PolPool) (amount : Nat) : Except PolPoolError Nat := do
  let scaled ← okOr (checkedMulU128 amount pool.feeBps) .overflow
  let fee ← okOr (checkedDiv scaled 10000) .overflow
  return wrapU64 fee

/-- `u64::try_from` -/
def tryU64 (x : Nat) : Option Nat := if x < 2 ^ 64 then some x else none

/-- The price of a token in SOV, with eight decimals. -/
def getTokenPrice (pool : PolPool) : Except PolPoolError Nat := do
  pool.requireInitialized
  if pool.tokenReserve = 0 then
    throw .insufficientLiquidity
  let scaled ← okOr (checkedMulU128 pool.sovReserve (10 ^ 8)) .overflow
  let price ← okOr (checkedDiv scaled pool.tokenReserve) .overflow
  okOr (tryU64 price) .overflow

structure Quote where
  fee : Nat
  out : Nat
  newSov : Nat
  newToken : Nat

def quoteSovToToken (pool : PolPool) (sovIn minTokenOut : Nat) : Except PolPoolError Quote := do
  pool.requireInitialized
  if sovIn = 0 then
    throw .zeroInput
  let fee ← pool.feeAmount sovIn
  let sovInAfterFee := sovIn - fee
  let effectiveSov ← okOr (checkedAddU64 pool.sovReserve sovInAfterFee) .overflow
  let newToken ← okOr (checkedDiv pool.k effectiveSov) .insufficientLiquidity
  let newToken ← okOr (tryU64 newToken) .overflow
  if newToken ≥ pool.tokenReserve then
    throw .insufficientLiquidity
  let tokenOut := pool.tokenReserve - newToken
  if tokenOut = 0 then
    throw .zeroOutput
  if tokenOut < minTokenOut then
    throw .slippageExceeded
  let newSov ← okOr (checkedAddU64 pool.sovReserve sovIn) .overflow
  return ⟨fee, tokenOut, newSov, newToken⟩

def quoteTokenToSov (pool : PolPool) (tokenIn minSovOut : Nat) : Except PolPoolError Quote := do
  pool.requireInitialized
  if tokenIn = 0 then
    throw .zeroInput
  let newToken ← okOr (checkedAddU64 pool.tokenReserve tokenIn) .overflow
  let newSovWithoutFee ← okOr (checkedDiv pool.k newToken) .insufficientLiquidity
  let newSovWithoutFee ← okOr (tryU64 newSovWithoutFee) .overflow
  if newSovWithoutFee ≥ pool.sovReserve then
    throw .insufficientLiquidity
  let sovOutBeforeFee := pool.sovReserve - newSovWithoutFee
  let fee ← pool.feeAmount sovOutBeforeFee
  let sovOut := sovOutBeforeFee - fee
  if sovOut = 0 then
    throw .zeroOutput
  if sovOut < minSovOut then
    throw .slippageExceeded
  let newSovWithFee ← okOr (checkedAddU64 newSovWithoutFee fee) .overflow
  return ⟨fee, sovOut, newSovWithFee, newToken⟩

/-- The end of both swaps. The reserves are written before the last steps that can fail. -/
def commit (pool : PolPool) (q : Quote) : Except PolPoolError Nat × PolPool :=
  let moved := { pool with sovReserve := q.newSov, tokenReserve := q.newToken }
  match checkedAddU64 pool.totalFeesSov q.fee with
  | none => (.error .overflow, moved)
  | some fees =>
    let charged := { moved with totalFeesSov := fees }
    match checkedMulU128 q.newSov q.newToken with
    | none => (.error .overflow, charged)
    | some k => (.ok q.out, { charged with k := k })

def swapSovToToken (pool : PolPool) (sovIn minTokenOut : Nat) : Except PolPoolError Nat × PolPool :=
  match pool.quoteSovToToken sovIn minTokenOut with
  | .error e => (.error e, pool)
  | .ok q => pool.commit q

def swapTokenToSov (pool : PolPool) (tokenIn minSovOut : Nat) : Except PolPoolError Nat × PolPool :=
  match pool.quoteTokenToSov tokenIn minSovOut with
  | .error e => (.error e, pool)
  | .ok q => pool.commit q

/-! ## What a quote says -/

section

variable {pool : PolPool} {amount minOut : Nat} {q : Quote}

theorem tryU64_eq_some {x y : Nat} : tryU64 x = some y ↔ x < 2 ^ 64 ∧ x = y := by
  simp [tryU64]

theorem requireInitialized_eq_ok {u : Unit} : pool.requireInitialized = .ok u ↔ pool.initialized = true := by
  unfold requireInitialized
  split
  · next hinit => exact ⟨nofun, fun h => absurd h hinit⟩
  · next hinit => exact ⟨fun _ => not_not.mp hinit, fun _ => rfl⟩

theorem getTokenPrice_eq_ok {price : Nat} : pool.getTokenPrice = .ok price ↔
    pool.initialized = true ∧ pool.tokenReserve ≠ 0 ∧ pool.sovReserve * 10 ^ 8 ≤ u128Max ∧
      pool.sovReserve * 10 ^ 8 / pool.tokenReserve = price ∧ price < 2 ^ 64 := by
  simp only [getTokenPrice, guard_eq_ok, bind_eq_ok, okOr_eq_ok, requireInitialized_eq_ok, tryU64_eq_some,
    checkedMulU128_eq_some, checkedDiv_eq_some]
  constructor
  · rintro ⟨_, hinit, htoken, _, ⟨hle, rfl⟩, _, ⟨-, rfl⟩, hlt, rfl⟩
    exact ⟨hinit, htoken, hle, rfl, hlt⟩
  · rintro ⟨hinit, htoken, hle, rfl, hlt⟩
    exact ⟨(), hinit, htoken, _, ⟨hle, rfl⟩, _, ⟨htoken, rfl⟩, hlt, rfl⟩

theorem feeAmount_eq_ok {fee : Nat} : pool.feeAmount amount = .ok fee ↔
    amount * pool.feeBps ≤ u128Max ∧ wrapU64 (amount * pool.feeBps / 10000) = fee := by
  simp only [feeAmount, bind_eq_ok, okOr_eq_ok, pure_eq_ok, checkedMulU128_eq_some, checkedDiv_eq_some]
  constructor
  · rintro ⟨_, ⟨hle, rfl⟩, _, ⟨-, rfl⟩, rfl⟩
    exact ⟨hle, rfl⟩
  · rintro ⟨hle, rfl⟩
    exact ⟨_, ⟨hle, rfl⟩, _, ⟨by decide, rfl⟩, rfl⟩

theorem quoteSovToToken_eq_ok (h : pool.quoteSovToToken amount minOut = .ok q) :
    q.fee = wrapU64 (amount * pool.feeBps / 10000) ∧
      q.newToken = pool.k / (pool.sovReserve + (amount - q.fee)) ∧ q.newToken < pool.tokenReserve ∧
      q.out = pool.tokenReserve - q.newToken ∧ q.newSov = pool.sovReserve + amount ∧ q.newSov < 2 ^ 64 := by
  simp only [quoteSovToToken, guard_eq_ok, bind_eq_ok, okOr_eq_ok, pure_eq_ok, feeAmount_eq_ok, tryU64_eq_some,
    checkedAddU64_eq_some, checkedDiv_eq_some] at h
  obtain ⟨_, -, -, _, ⟨-, rfl⟩, _, ⟨-, rfl⟩, _, ⟨-, rfl⟩, _, ⟨-, rfl⟩, hlt, -, -, _, ⟨hfits, rfl⟩, rfl⟩ := h
  exact ⟨rfl, rfl, Nat.lt_of_not_ge hlt, rfl, rfl, hfits⟩

theorem quoteTokenToSov_eq_ok (h : pool.quoteTokenToSov amount minOut = .ok q) :
    q.newToken = pool.tokenReserve + amount ∧ q.newToken < 2 ^ 64 ∧ pool.k / q.newToken < pool.sovReserve ∧
      q.fee = wrapU64 ((pool.sovReserve - pool.k / q.newToken) * pool.feeBps / 10000) ∧
      q.newSov = pool.k / q.newToken + q.fee ∧ q.newSov < 2 ^ 64 ∧
      q.out = pool.sovReserve - pool.k / q.newToken - q.fee ∧ q.out ≠ 0 := by
  simp only [quoteTokenToSov, guard_eq_ok, bind_eq_ok, okOr_eq_ok, pure_eq_ok, feeAmount_eq_ok, tryU64_eq_some,
    checkedAddU64_eq_some, checkedDiv_eq_some] at h
  obtain ⟨_, -, -, _, ⟨hfits, rfl⟩, _, ⟨-, rfl⟩, _, ⟨-, rfl⟩, hlt, _, ⟨-, rfl⟩, hout, -, _, ⟨hsov, rfl⟩, rfl⟩ := h
  exact ⟨rfl, hfits, Nat.lt_of_not_ge hlt, rfl, rfl, hsov, rfl, hout⟩

theorem commit_eq_ok (hfees : pool.totalFeesSov + q.fee < 2 ^ 64) (hsov : q.newSov < 2 ^ 64)
    (htoken : q.newToken < 2 ^ 64) :
    pool.commit q = (.ok q.out, { pool with
      sovReserve := q.newSov, tokenReserve := q.newToken, totalFeesSov := pool.totalFeesSov + q.fee
      k := q.newSov * q.newToken }) := by
  have hk : q.newSov * q.newToken ≤ u128Max :=
    Nat.le_trans (Nat.mul_le_mul (Nat.le_pred_of_lt hsov) (Nat.le_pred_of_lt htoken)) (by decide)
  simp only [commit, checkedAddU64, if_pos hfees, checkedMulU128, if_pos hk]

end

end PolPool

end SovereignNetwork.Swap
