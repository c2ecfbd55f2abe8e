import Mathlib.Algebra.Order.Monoid.Unbundled.MinMax
import Mathlib.Data.Nat.Sqrt
import SovereignNetwork.Execution.Curve
import SovereignNetwork.Swap.Pool

/-!
# Positions of liquidity providers

Shares of a pool and the three streams of rewards for them. Amounts, reserves and heights are `u64`, products are taken
in `u128`. The volume counters and the average price are left out: no call on positions reads them.
-/

namespace SovereignNetwork.Swap

open Lib
open Execution (PublicKey integerSqrtLoop integerSqrtLoop_spec)

/-! ## Data -/

structure LiquidityPosition where
  provider : PublicKey
  lpTokens : Nat
  providedAtHeight : Nat
  timeWeightedStake : Nat
  lastRewardClaimHeight : Nat
  deriving DecidableEq

structure LpRewardBreakdown where
  baseYield : Nat
  alignmentBonus : Nat
  ubiContribution : Nat
  totalSov : Nat
  deriving DecidableEq

structure LpPositionsManager where
  positions : HashMap (Bytes 32) LiquidityPosition := ∅
  totalLpSupply : Nat := 0
  baseLpPool : Nat := 0
  alignmentMultiplierPool : Nat := 0
  ubiRoutingPool : Nat := 0
  daoHealthScore : Nat := 75

def integerSqrt (n : Nat) : Nat := if n < 2 then n else integerSqrtLoop n (2 ^ 32) 0 (min n (2 ^ 32))

def saturatingMulU64 (x y : Nat) : Nat := min (x * y) (2 ^ 64 - 1)

def minSovLiquidity : Nat := 100000000000

theorem saturatingAddU64_of_lt {x y : Nat} (h : x + y < 2 ^ 64) : saturatingAddU64 x y = x + y := by
  unfold saturatingAddU64
  omega

theorem wrapU64_div_mul_le (x y : Nat) : wrapU64 (x / y) * y ≤ x :=
  Nat.le_trans (Nat.mul_le_mul_right _ (Nat.mod_le _ _)) (Nat.div_mul_le_self _ _)

namespace LpPositionsManager

/-! ## Deposits -/

def initialShares (sovAmount tokenAmount : Nat) : Except String Nat := do
  let product := saturatingMulU64 (min sovAmount tokenAmount) (max sovAmount tokenAmount)
  if product = 0 then
    throw "Liquidity amounts too small"
  let sqrt := integerSqrt product
  if sqrt = 0 then
    throw "Initial liquidity below minimum"
  return sqrt

def proportionalShares (m : LpPositionsManager) (sovAmount tokenAmount sovReserve tokenReserve : Nat) :
    Except String Nat := do
  if sovReserve = 0 ∨ tokenReserve = 0 then
    throw "Pool reserves corrupted"
  let scaledSov ← okOr (checkedMulU128 sovAmount m.totalLpSupply) "Overflow in SOV share calculation"
  let sovShare ← okOr (checkedDiv scaledSov sovReserve) "Division by zero"
  let scaledToken ← okOr (checkedMulU128 tokenAmount m.totalLpSupply) "Overflow in token share calculation"
  let tokenShare ← okOr (checkedDiv scaledToken tokenReserve) "Division by zero"
  return wrapU64 (min sovShare tokenShare)

def lpTokensToMint (m : LpPositionsManager) (sovAmount tokenAmount sovReserve tokenReserve : Nat) :
    Except String Nat := do
  if sovAmount < minSovLiquidity then
    throw s!"Minimum SOV liquidity is {minSovLiquidity / 100000000}, got {sovAmount / 100000000}"
  let minted ← (if m.totalLpSupply = 0 then initialShares sovAmount tokenAmount
    else m.proportionalShares sovAmount tokenAmount sovReserve tokenReserve)
  if minted = 0 then
    throw "Liquidity amounts too small (would mint zero LP tokens)"
  return minted

/-- The position of a provider that had none. -/
def emptyPosition (provider : PublicKey) (currentHeight : Nat) : LiquidityPosition where
  provider := provider
  lpTokens := 0
  providedAtHeight := currentHeight
  timeWeightedStake := 0
  lastRewardClaimHeight := currentHeight

def addLiquidity (m : LpPositionsManager) (sovAmount tokenAmount sovReserve tokenReserve : Nat)
    (provider : PublicKey) (currentHeight : Nat) : Except String (Nat × LpPositionsManager) := do
  let minted ← m.lpTokensToMint sovAmount tokenAmount sovReserve tokenReserve
  let position := (m.positions.lookup provider.keyId).getD (emptyPosition provider currentHeight)
  return (minted, { m with
    positions := m.positions.insert provider.keyId
      { position with lpTokens := saturatingAddU64 position.lpTokens minted }
    totalLpSupply := saturatingAddU64 m.totalLpSupply minted })

/-! ## Withdrawals -/

/-- What a withdrawal pays out, with the position left by it. -/
def quoteRemoval (m : LpPositionsManager) (lpTokens minSovOut minTokenOut sovReserve tokenReserve : Nat)
    (provider : PublicKey) : Except String ((Nat × Nat) × LiquidityPosition) := do
  let position ← okOr (m.positions.lookup provider.keyId) "No LP position found"
  if position.lpTokens < lpTokens then
    throw s!"Insufficient LP tokens: have {position.lpTokens}, requesting {lpTokens}"
  if m.totalLpSupply = 0 then
    throw "Pool total supply is zero"
  let scaledSov ← okOr (checkedMulU128 lpTokens sovReserve) "Overflow in SOV calculation"
  let sovShare ← okOr (checkedDiv scaledSov m.totalLpSupply) "Division error"
  let sovOut := wrapU64 sovShare
  let scaledToken ← okOr (checkedMulU128 lpTokens tokenReserve) "Overflow in token calculation"
  let tokenShare ← okOr (checkedDiv scaledToken m.totalLpSupply) "Division error"
  let tokenOut := wrapU64 tokenShare
  if sovOut < minSovOut then
    throw s!"SOV slippage exceeded: got {sovOut}, minimum {minSovOut}"
  if tokenOut < minTokenOut then
    throw s!"Token slippage exceeded: got {tokenOut}, minimum {minTokenOut}"
  let left ← okOr (checkedSub position.lpTokens lpTokens) "LP token underflow"
  return ((sovOut, tokenOut), { position with lpTokens := left })

/-- The position is written before the supply is checked. -/
def removeLiquidity (m : LpPositionsManager) (lpTokens minSovOut minTokenOut sovReserve tokenReserve : Nat)
    (provider : PublicKey) : Except String (Nat × Nat) × LpPositionsManager :=
  match m.quoteRemoval lpTokens minSovOut minTokenOut sovReserve tokenReserve provider with
  | .error e => (.error e, m)
  | .ok (out, position) =>
    let m := { m with positions := m.positions.insert provider.keyId position }
    match checkedSub m.totalLpSupply lpTokens with
    | none => (.error "Total supply underflow", m)
    | some supply => (.ok out, { m with totalLpSupply := supply })

/-! ## Rewards -/

def claimLpRewards (m : LpPositionsManager) (provider : PublicKey) (currentHeight : Nat) :
    Except String (LpRewardBreakdown × LpPositionsManager) := do
  let position ← okOr (m.positions.lookup provider.keyId) "No LP position found"
  let blocksSinceLastClaim := currentHeight - position.lastRewardClaimHeight
  if blocksSinceLastClaim = 0 then
    throw "Must wait at least one block before claiming again"
  if m.totalLpSupply = 0 then
    throw "Total LP supply is zero"
  let providerShareBasis := wrapU64 (position.lpTokens * 10000 / m.totalLpSupply)
  let baseYield := wrapU64 (m.baseLpPool * providerShareBasis / 10000)
  -- the product of three factors is the only one that can pass `u128`
  let alignmentBonus :=
    wrapU64 (wrapU128 (m.alignmentMultiplierPool * providerShareBasis * m.daoHealthScore) / (10000 * 100))
  let ubiContribution := wrapU64 (m.ubiRoutingPool * providerShareBasis / 10000)
  let totalSov := saturatingAddU64 (saturatingAddU64 baseYield alignmentBonus) ubiContribution
  return (⟨baseYield, alignmentBonus, ubiContribution, totalSov⟩, { m with
    positions := m.positions.insert provider.keyId { position with lastRewardClaimHeight := currentHeight }
    baseLpPool := m.baseLpPool - baseYield
    alignmentMultiplierPool := m.alignmentMultiplierPool - alignmentBonus
    ubiRoutingPool := m.ubiRoutingPool - ubiContribution })

/-! ## What the calls do -/

theorem integerSqrt_eq_sqrt {n : Nat} (h : n < 2 ^ 64) : integerSqrt n = Nat.sqrt n := by
  unfold integerSqrt
  split
  · next hsmall =>
    obtain rfl | rfl : n = 0 ∨ n = 1 := by omega
    · rfl
    · rfl
  · next hbig =>
    refine Nat.eq_sqrt.mpr (integerSqrtLoop_spec (by omega) (Nat.zero_le _) ?_)
    -- the bisection starts above the root
    rcases Nat.le_total n (2 ^ 32) with hle | hle
    · rw [Nat.min_eq_left hle]
      exact Nat.lt_of_lt_of_le (by omega) (Nat.mul_le_mul_right n (Nat.le_of_not_lt hbig))
    · rw [Nat.min_eq_right hle]
      omega

variable {m m' : LpPositionsManager} {sovAmount tokenAmount sovReserve tokenReserve minted lpTokens minSovOut
  minTokenOut sovOut tokenOut currentHeight : Nat} {provider : PublicKey}

theorem initialShares_eq (hpos : 0 < sovAmount * tokenAmount) :
    initialShares sovAmount tokenAmount = .ok (Nat.sqrt (min (sovAmount * tokenAmount) (2 ^ 64 - 1))) := by
  have hproduct : saturatingMulU64 (min sovAmount tokenAmount) (max sovAmount tokenAmount) =
      min (sovAmount * tokenAmount) (2 ^ 64 - 1) := by
    rw [saturatingMulU64, min_mul_max]
  have hlt : min (sovAmount * tokenAmount) (2 ^ 64 - 1) < 2 ^ 64 := by omega
  have hsqrt : 0 < Nat.sqrt (min (sovAmount * tokenAmount) (2 ^ 64 - 1)) := Nat.sqrt_pos.mpr (by omega)
  unfold initialShares
  simp only [hproduct, integerSqrt_eq_sqrt hlt]
  exact guard_eq_ok.mpr ⟨by omega, guard_eq_ok.mpr ⟨by omega, rfl⟩⟩

theorem initialShares_eq_ok (h : initialShares sovAmount tokenAmount = .ok minted) :
    minted * minted ≤ sovAmount * tokenAmount := by
  rcases Nat.eq_zero_or_pos (sovAmount * tokenAmount) with hzero | hpos
  · simp [initialShares, saturatingMulU64, min_mul_max, hzero, throw_eq_ok, bind_eq_ok] at h
  · rw [initialShares_eq hpos] at h
    cases h
    exact (Nat.sqrt_le _).trans (Nat.min_le_left _ _)

theorem proportionalShares_eq_ok
    (h : m.proportionalShares sovAmount tokenAmount sovReserve tokenReserve = .ok minted) :
    0 < sovReserve ∧ 0 < tokenReserve ∧ minted = wrapU64 (min (sovAmount * m.totalLpSupply / sovReserve)
      (tokenAmount * m.totalLpSupply / tokenReserve)) := by
  simp only [proportionalShares, guard_eq_ok, bind_eq_ok, okOr_eq_ok, pure_eq_ok, checkedMulU128_eq_some,
    checkedDiv_eq_some] at h
  obtain ⟨hpos, _, ⟨-, rfl⟩, _, ⟨-, rfl⟩, _, ⟨-, rfl⟩, _, ⟨-, rfl⟩, rfl⟩ := h
  exact ⟨by omega, by omega, rfl⟩

/-- The shares of a deposit, before they are cut to 64 bits. -/
inductive Mints (m : LpPositionsManager) (sovAmount tokenAmount sovReserve tokenReserve minted : Nat) : Prop
  | initial (hsupply : m.totalLpSupply = 0) (hsq : minted * minted ≤ sovAmount * tokenAmount)
  | proportional {shares : Nat} (hsupply : 0 < m.totalLpSupply) (hsov : 0 < sovReserve) (htoken : 0 < tokenReserve)
      (hsovShare : shares * sovReserve ≤ sovAmount * m.totalLpSupply)
      (htokenShare : shares * tokenReserve ≤ tokenAmount * m.totalLpSupply) (hminted : minted = wrapU64 shares)

theorem mints_of_lpTokensToMint (h : m.lpTokensToMint sovAmount tokenAmount sovReserve tokenReserve = .ok minted) :
    Mints m sovAmount tokenAmount sovReserve tokenReserve minted := by
  simp only [lpTokensToMint, guard_eq_ok, bind_eq_ok, pure_eq_ok] at h
  obtain ⟨-, _, hminted, -, rfl⟩ := h
  split at hminted
  · next hsupply => exact .initial hsupply (initialShares_eq_ok hminted)
  · next hsupply =>
    obtain ⟨hsov, htoken, hshares⟩ := proportionalShares_eq_ok hminted
    refine .proportional (by omega) hsov htoken ?_ ?_ hshares
    · exact Nat.le_trans (Nat.mul_le_mul_right _ (Nat.min_le_left _ _)) (Nat.div_mul_le_self _ _)
    · exact Nat.le_trans (Nat.mul_le_mul_right _ (Nat.min_le_right _ _)) (Nat.div_mul_le_self _ _)

theorem addLiquidity_eq_ok
    (h : m.addLiquidity sovAmount tokenAmount sovReserve tokenReserve provider currentHeight = .ok (minted, m')) :
    Mints m sovAmount tokenAmount sovReserve tokenReserve minted ∧ ∃ position,
      (m.positions.lookup provider.keyId).getD (emptyPosition provider currentHeight) = position ∧
      m' = { m with
        positions := m.positions.insert provider.keyId
          { position with lpTokens := saturatingAddU64 position.lpTokens minted }
        totalLpSupply := saturatingAddU64 m.totalLpSupply minted } := by
  simp only [addLiquidity, bind_eq_ok, pure_eq_ok, Prod.mk.injEq] at h
  obtain ⟨_, hminted, rfl, rfl⟩ := h
  exact ⟨mints_of_lpTokensToMint hminted, _, rfl, rfl⟩

theorem quoteRemoval_eq_ok {position' : LiquidityPosition}
    (h : m.quoteRemoval lpTokens minSovOut minTokenOut sovReserve tokenReserve provider =
      .ok ((sovOut, tokenOut), position')) :
    ∃ position, m.positions.lookup provider.keyId = some position ∧ lpTokens ≤ position.lpTokens ∧
      0 < m.totalLpSupply ∧ sovOut = wrapU64 (lpTokens * sovReserve / m.totalLpSupply) ∧
      tokenOut = wrapU64 (lpTokens * tokenReserve / m.totalLpSupply) ∧
      position' = { position with lpTokens := position.lpTokens - lpTokens } := by
  simp only [quoteRemoval, guard_eq_ok, bind_eq_ok, okOr_eq_ok, pure_eq_ok, checkedMulU128_eq_some,
    checkedDiv_eq_some, checkedSub_eq_some, Prod.mk.injEq] at h
  obtain ⟨position, hposition, -, hsupply, _, ⟨-, rfl⟩, _, ⟨-, rfl⟩, _, ⟨-, rfl⟩, _, ⟨-, rfl⟩, -, -, _, ⟨hle, rfl⟩,
    ⟨rfl, rfl⟩, rfl⟩ := h
  exact ⟨position, hposition, hle, by omega, rfl, rfl, rfl⟩

/-! ## The first deposit -/

/-- The first deposit mints the geometric mean of the amounts where their product fits 64 bits, and only there. -/
theorem first_deposit_mints_sqrt (m : LpPositionsManager) (sovAmount tokenAmount sovReserve tokenReserve : Nat)
    (provider : PublicKey) (currentHeight : Nat) (hempty : m.totalLpSupply = 0) (hmin : minSovLiquidity ≤ sovAmount)
    (htoken : 0 < tokenAmount) :
    ∃ minted m', m.addLiquidity sovAmount tokenAmount sovReserve tokenReserve provider currentHeight =
      .ok (minted, m') ∧ (minted = Nat.sqrt (sovAmount * tokenAmount) ↔ sovAmount * tokenAmount < 2 ^ 64) := by
  have hpos : 0 < sovAmount * tokenAmount := Nat.mul_pos (Nat.lt_of_lt_of_le (by decide) hmin) htoken
  have hsqrt : 0 < Nat.sqrt (min (sovAmount * tokenAmount) (2 ^ 64 - 1)) := Nat.sqrt_pos.mpr (by omega)
  have hminted : m.lpTokensToMint sovAmount tokenAmount sovReserve tokenReserve =
      .ok (Nat.sqrt (min (sovAmount * tokenAmount) (2 ^ 64 - 1))) := by
    refine guard_eq_ok.mpr ⟨Nat.not_lt.mpr hmin, bind_eq_ok.mpr ⟨_, ?_, guard_eq_ok.mpr ⟨by omega, rfl⟩⟩⟩
    rw [if_pos hempty, initialShares_eq hpos]
  refine ⟨_, _, bind_eq_ok.mpr ⟨_, hminted, rfl⟩, fun heq => ?_, fun hlt => by rw [Nat.min_eq_left (by omega)]⟩
  by_contra hge
  have hroot : Nat.sqrt (2 ^ 64) ≤ Nat.sqrt (sovAmount * tokenAmount) := Nat.sqrt_le_sqrt (Nat.le_of_not_lt hge)
  rw [← heq, Nat.min_eq_right (by omega)] at hroot
  exact absurd hroot (by decide +kernel)

theorem first_deposit_of_small_token :
    ∃ minted m', ({} : LpPositionsManager).addLiquidity 100000000000 4 0 0 (.ofKeyId 1) 1 = .ok (minted, m') ∧
      minted = 632455 := by
  obtain ⟨minted, m', h, hsqrt⟩ := first_deposit_mints_sqrt {} 100000000000 4 0 0 (.ofKeyId 1) 1 rfl (by decide) (by decide)
  exact ⟨minted, m', h, (hsqrt.mpr (by decide)).trans (by decide +kernel)⟩

/-- A thousand tokens of each kind have a product beyond 64 bits. -/
theorem first_deposit_of_equal_amounts :
    (({} : LpPositionsManager).addLiquidity 100000000000 100000000000 0 0 (.ofKeyId 1) 1).toOption.map Prod.fst =
        some 4294967295 ∧
      Nat.sqrt (100000000000 * 100000000000) = 100000000000 := by
  decide +kernel

end LpPositionsManager

end SovereignNetwork.Swap
