import SovereignNetwork.Execution.Types
import SovereignNetwork.Lib.Except

/-!
# The swap pool

The constant product pool `SovSwapPool` for SOV and one DAO token. Reserves, amounts and fees are `u64`, the product is
`u128`. A call returns its result together with the pool it leaves.
-/

namespace SovereignNetwork.Swap

open Lib
open Execution (PublicKey)

/-! ## Data -/

inductive SwapError
  | poolNotInitialized
  | zeroInputAmount
  | zeroOutputAmount
  | insufficientLiquidity
  | slippageExceeded
  | governanceOnly
  | feeTooHigh
  | insufficientInitialLiquidity
  | overflow
  | invalidTokenAddress
  | kInvariantViolation
  deriving DecidableEq

structure SwapResult where
  amountIn : Nat
  amountOut : Nat
  feeAmount : Nat
  newSovReserve : Nat
  newTokenReserve : Nat
  deriving DecidableEq

inductive DAOType
  | np
  | fp
  deriving DecidableEq

structure SovSwapPool where
  poolId : Bytes 32
  tokenId : Bytes 32
  daoType : DAOType
  governanceAddr : PublicKey
  treasuryAddr : PublicKey
  initialized : Bool
  sovReserve : Nat
  tokenReserve : Nat
  k : Nat
  feeBps : Nat
  pendingSovFees : Nat
  pendingTokenFees : Nat
  deriving DecidableEq

def defaultFeeBps : Nat := 100

def maxFeeBps : Nat := 1000

def minimumLiquidity : Nat := 1000

namespace SovSwapPool

/-! ## Creation -/

/-- The address check looks at the Dilithium key only (`as_bytes`). The pool id is a hash of the token id. -/
def initPool (derivePoolId : Bytes 32 → Bytes 32) (tokenId : Bytes 32) (daoType : DAOType)
    (initialSov initialToken : Nat) (governanceAddr treasuryAddr : PublicKey) : Except SwapError SovSwapPool := do
  if initialSov < minimumLiquidity ∨ initialToken < minimumLiquidity then
    throw .insufficientInitialLiquidity
  if governanceAddr.dilithiumPk = 0 then
    throw .invalidTokenAddress
  if treasuryAddr.dilithiumPk = 0 then
    throw .invalidTokenAddress
  let k ← okOr (checkedMulU128 initialSov initialToken) .overflow
  return {
    poolId := derivePoolId tokenId
    tokenId := tokenId
    daoType := daoType
    governanceAddr := governanceAddr
    treasuryAddr := treasuryAddr
    initialized := true
    sovReserve := initialSov
    tokenReserve := initialToken
    k := k
    feeBps := defaultFeeBps
    pendingSovFees := 0
    pendingTokenFees := 0 }

/-! ## Swaps -/

def requireInitialized (pool : SovSwapPool) : Except SwapError Unit := do
  if ¬ pool.initialized then
    throw .poolNotInitialized

def requireGovernance (pool : SovSwapPool) (caller : PublicKey) : Except SwapError Unit := do
  if caller ≠ pool.governanceAddr then
    throw .governanceOnly

def calculateFee (pool : SovSwapPool) (amount : Nat) : Except SwapError Nat := do
  let scaled ← okOr (checkedMulU128 amount pool.feeBps) .overflow
  let fee ← okOr (checkedDiv scaled 10000) .overflow
  return wrapU64 fee

def calculateOutput (amountIn reserveIn reserveOut : Nat) : Except SwapError Nat := do
  if reserveIn = 0 ∨ reserveOut = 0 then
    throw .insufficientLiquidity
  let numerator ← okOr (checkedMulU128 reserveOut amountIn) .overflow
  let denominator ← okOr (checkedAddU128 reserveIn amountIn) .overflow
  let amountOut ← okOr (checkedDiv numerator denominator) .overflow
  return wrapU64 amountOut

structure Quote where
  feeAmount : Nat
  amountOut : Nat
  newReserveIn : Nat
  newReserveOut : Nat
  newK : Nat

/-- The part of a swap that only reads the pool. It is the same in both directions, up to which reserve is paid in. -/
def quote (pool : SovSwapPool) (amount : Nat) (minOut : Option Nat) (reserveIn reserveOut : Nat) :
    Except SwapError Quote := do
  pool.requireInitialized
  if amount = 0 then
    throw .zeroInputAmount
  let feeAmount ← pool.calculateFee amount
  let amountAfterFee ← okOr (checkedSub amount feeAmount) .overflow
  let amountOut ← calculateOutput amountAfterFee reserveIn reserveOut
  if amountOut = 0 then
    throw .zeroOutputAmount
  if minOut.any (amountOut < ·) then
    throw .slippageExceeded
  if amountOut ≥ reserveOut then
    throw .insufficientLiquidity
  let newReserveIn ← okOr (checkedAddU64 reserveIn amountAfterFee) .overflow
  let newReserveOut ← okOr (checkedSub reserveOut amountOut) .overflow
  let newK ← okOr (checkedMulU128 newReserveIn newReserveOut) .overflow
  if newK < pool.k then
    throw .kInvariantViolation
  return ⟨feeAmount, amountOut, newReserveIn, newReserveOut, newK⟩

def swapSovToToken (pool : SovSwapPool) (_caller : PublicKey) (sovAmount : Nat) (minTokenOut : Option Nat) :
    Except SwapError SwapResult × SovSwapPool :=
  match pool.quote sovAmount minTokenOut pool.sovReserve pool.tokenReserve with
  | .error e => (.error e, pool)
  | .ok q =>
    let committed := { pool with sovReserve := q.newReserveIn, tokenReserve := q.newReserveOut, k := q.newK }
    -- the reserves are committed before the fee is added
    match checkedAddU64 pool.pendingSovFees q.feeAmount with
    | none => (.error .overflow, committed)
    | some fees =>
      (.ok ⟨sovAmount, q.amountOut, q.feeAmount, q.newReserveIn, q.newReserveOut⟩,
        { committed with pendingSovFees := fees })

def swapTokenToSov (pool : SovSwapPool) (_caller : PublicKey) (tokenAmount : Nat) (minSovOut : Option Nat) :
    Except SwapError SwapResult × SovSwapPool :=
  match pool.quote tokenAmount minSovOut pool.tokenReserve pool.sovReserve with
  | .error e => (.error e, pool)
  | .ok q =>
    let committed := { pool with sovReserve := q.newReserveOut, tokenReserve := q.newReserveIn, k := q.newK }
    match checkedAddU64 pool.pendingTokenFees q.feeAmount with
    | none => (.error .overflow, committed)
    | some fees =>
      (.ok ⟨tokenAmount, q.amountOut, q.feeAmount, q.newReserveOut, q.newReserveIn⟩,
        { committed with pendingTokenFees := fees })

/-! ## Fees -/

def setFeeBps (pool : SovSwapPool) (caller : PublicKey) (newFeeBps : Nat) : Except SwapError (Nat × SovSwapPool) := do
  pool.requireGovernance caller
  if newFeeBps > maxFeeBps then
    throw .feeTooHigh
  return (pool.feeBps, { pool with feeBps := newFeeBps })

def collectFees (pool : SovSwapPool) : (Nat × Nat) × SovSwapPool :=
  ((pool.pendingSovFees, pool.pendingTokenFees), { pool with pendingSovFees := 0, pendingTokenFees := 0 })

/-! ## What a quote says -/

section

variable {pool : SovSwapPool} {amount reserveIn reserveOut : Nat} {minOut : Option Nat} {q : Quote}

theorem calculateFee_le {fee : Nat} (h : pool.calculateFee amount = .ok fee) :
    fee ≤ amount * pool.feeBps / 10000 := by
  simp only [calculateFee, bind_eq_ok, okOr_eq_ok, pure_eq_ok, checkedMulU128_eq_some, checkedDiv_eq_some] at h
  obtain ⟨_, ⟨-, rfl⟩, _, ⟨-, rfl⟩, rfl⟩ := h
  exact Nat.mod_le _ _

theorem calculateOutput_mul_le {out : Nat} (h : calculateOutput amount reserveIn reserveOut = .ok out) :
    (reserveIn + amount) * out ≤ reserveOut * amount := by
  simp only [calculateOutput, guard_eq_ok, bind_eq_ok, okOr_eq_ok, pure_eq_ok, checkedMulU128_eq_some,
    checkedAddU128_eq_some, checkedDiv_eq_some] at h
  obtain ⟨-, _, ⟨-, rfl⟩, _, ⟨-, rfl⟩, _, ⟨-, rfl⟩, rfl⟩ := h
  exact Nat.le_trans (Nat.mul_le_mul_left _ (Nat.mod_le _ _)) (Nat.mul_div_le _ _)

theorem mul_le_of_floor {out : Nat} (hout : out < reserveOut)
    (h : (reserveIn + amount) * out ≤ reserveOut * amount) :
    reserveIn * reserveOut ≤ (reserveIn + amount) * (reserveOut - out) := by
  have hsum : (reserveIn + amount) * (reserveOut - out) + (reserveIn + amount) * out =
      reserveIn * reserveOut + reserveOut * amount := by
    rw [← Nat.mul_add, Nat.sub_add_cancel (Nat.le_of_lt hout), Nat.add_mul, Nat.mul_comm amount]
  omega

structure Quoted (pool : SovSwapPool) (amount reserveIn reserveOut : Nat) (q : Quote) : Prop where
  paid : q.newReserveIn + q.feeAmount = reserveIn + amount
  reserveIn_le : reserveIn ≤ q.newReserveIn
  newReserveIn_lt : q.newReserveIn < 2 ^ 64
  received : q.newReserveOut + q.amountOut = reserveOut
  newReserveOut_pos : 0 < q.newReserveOut
  newK : q.newK = q.newReserveIn * q.newReserveOut
  mul_le : reserveIn * reserveOut ≤ q.newK
  fee : q.feeAmount ≤ amount * pool.feeBps / 10000

theorem quoted_of_quote (h : pool.quote amount minOut reserveIn reserveOut = .ok q) :
    Quoted pool amount reserveIn reserveOut q := by
  simp only [quote, guard_eq_ok, bind_eq_ok, okOr_eq_ok, pure_eq_ok, checkedSub_eq_some, checkedAddU64_eq_some,
    checkedMulU128_eq_some] at h
  obtain ⟨-, -, -, fee, hfee, _, ⟨hle, rfl⟩, out, hout, -, -, hlt, _, ⟨hin, rfl⟩, _, ⟨-, rfl⟩, _, ⟨-, rfl⟩, -, rfl⟩ := h
  have hlt : out < reserveOut := Nat.lt_of_not_le hlt
  exact {
    paid := by simp only; omega
    reserveIn_le := Nat.le_add_right _ _
    newReserveIn_lt := hin
    received := Nat.sub_add_cancel (Nat.le_of_lt hlt)
    newReserveOut_pos := Nat.sub_pos_of_lt hlt
    newK := rfl
    mul_le := mul_le_of_floor hlt (calculateOutput_mul_le hout)
    fee := calculateFee_le hfee }

theorem requireInitialized_ne : pool.requireInitialized ≠ .error .kInvariantViolation := by
  unfold requireInitialized
  split <;> simp [throw, throwThe, MonadExceptOf.throw, pure, Except.pure]

theorem calculateFee_ne : pool.calculateFee amount ≠ .error .kInvariantViolation := by
  simp only [calculateFee, bind_eq_error, okOr_eq_error, pure_ne_error, reduceCtorEq, and_false, exists_false, or_false,
    ne_eq, not_false_eq_true]

theorem calculateOutput_ne : calculateOutput amount reserveIn reserveOut ≠ .error .kInvariantViolation := by
  simp only [calculateOutput, guard_eq_error, bind_eq_error, okOr_eq_error, pure_ne_error, reduceCtorEq, and_false,
    exists_false, or_false, ne_eq, not_false_eq_true]

theorem setFeeBps_cases (pool : SovSwapPool) (caller : PublicKey) (newFeeBps : Nat) :
    (∃ e, e ≠ .kInvariantViolation ∧ pool.setFeeBps caller newFeeBps = .error e) ∨
      pool.setFeeBps caller newFeeBps = .ok (pool.feeBps, { pool with feeBps := newFeeBps }) := by
  by_cases hcaller : caller = pool.governanceAddr
  · by_cases hfee : newFeeBps > maxFeeBps
    · refine .inl ⟨.feeTooHigh, by decide, ?_⟩
      simp only [setFeeBps, requireGovernance, hcaller, hfee, ne_eq, not_true_eq_false, if_false, if_true]
      rfl
    · refine .inr ?_
      simp only [setFeeBps, requireGovernance, hcaller, hfee, ne_eq, not_true_eq_false, if_false]
      rfl
  · refine .inl ⟨.governanceOnly, by decide, ?_⟩
    simp only [setFeeBps, requireGovernance, hcaller, ne_eq, not_false_eq_true, if_true]
    rfl

theorem quote_ne_kInvariantViolation (hk : pool.k = reserveIn * reserveOut) :
    pool.quote amount minOut reserveIn reserveOut ≠ .error .kInvariantViolation := by
  intro h
  simp only [quote, bind_eq_error, guard_eq_error, okOr_eq_error, okOr_eq_ok, pure_ne_error, requireInitialized_ne,
    calculateFee_ne, calculateOutput_ne, reduceCtorEq, and_false, false_or, or_false, checkedSub_eq_some,
    checkedAddU64_eq_some, checkedMulU128_eq_some] at h
  obtain ⟨-, -, -, fee, -, _, ⟨-, rfl⟩, out, hout, -, -, hlt, _, ⟨-, rfl⟩, _, ⟨-, rfl⟩, _, ⟨-, rfl⟩, hk'⟩ := h
  have hle := mul_le_of_floor (Nat.lt_of_not_le hlt) (calculateOutput_mul_le hout)
  omega

end

end SovSwapPool

end SovereignNetwork.Swap
