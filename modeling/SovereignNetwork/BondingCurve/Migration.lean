import SovereignNetwork.BondingCurve.Token
import SovereignNetwork.Swap.PolPool

/-!
# Migration of a graduated token

The pool of a graduated token is seeded with the reserve and with as many tokens as the final price of the curve gives
for it, rounded down. The hash that gives the id of the pool is a parameter.
-/

namespace SovereignNetwork.BondingCurve

open Lib
open Swap (PolPool PolPoolError polMinimumInitialLiquidity)

def minimumAmmLiquidity : Nat := 1000000

structure AmmPoolCreationResult where
  poolId : Bytes 32
  initialSovReserve : Nat
  initialTokenReserve : Nat
  initialK : Nat
  initialPrice : Nat
  finalCurvePrice : Nat
  deriving DecidableEq

def mapPolErrorToCurveError : PolPoolError → CurveError
  | .alreadyInitialized => .invalidParameters "Pool already initialized"
  | .insufficientInitialLiquidity => .insufficientReserve
  | .overflow => .overflow
  | .zeroInput | .zeroOutput => .invalidParameters "Invalid swap amount"
  | .slippageExceeded => .invalidParameters "Slippage tolerance exceeded"
  | .insufficientLiquidity => .insufficientReserve
  | .notInitialized => .invalidParameters "Pool not initialized"

namespace BondingCurveToken

variable (derivePoolId : Bytes 32 → Bytes 32)

/-- The token is written after the last step that can fail. -/
def createPolPoolForGraduatedToken (token : BondingCurveToken) (blockHeight timestamp : Nat) :
    Except CurveError (BondingCurveToken × PolPool × AmmPoolCreationResult × BondingCurveEvent) := do
  if token.phase ≠ .graduated then
    throw (.invalidPhase token.phase .graduated)
  if token.reserveBalance < minimumAmmLiquidity then
    throw .insufficientReserve
  let initialSov := token.reserveBalance
  let finalCurvePrice := token.currentPrice
  if finalCurvePrice = 0 then
    throw (.invalidParameters "Final curve price is zero")
  let scaled ← okOr (checkedMulU128 initialSov priceScale) .overflow
  let initialCbe ← okOr (checkedDiv scaled finalCurvePrice) .overflow
  let initialCbe ← okOr (PolPool.tryU64 initialCbe) .overflow
  if initialCbe = 0 then
    throw .insufficientReserve
  let k ← okOr (checkedMulU128 initialSov initialCbe) .overflow
  let scaled ← okOr (checkedMulU128 initialSov priceScale) .overflow
  let initialAmmPrice ← okOr (checkedDiv scaled initialCbe) .overflow
  if initialAmmPrice ≠ finalCurvePrice then
    throw (.invalidParameters "Price continuity check failed")
  let sov ← okOr (PolPool.tryU64 initialSov) .overflow
  let pool ← ((PolPool.new token.tokenId).initializePool sov initialCbe).mapError mapPolErrorToCurveError
  let poolId := derivePoolId token.tokenId
  if token.ammPoolId.any (· ≠ poolId) then
    throw (.invalidParameters "Recorded AMM pool id does not match seeded pool id")
  let migrated ← token.completeMigration poolId
  return ({ migrated with reserveBalance := 0, treasuryBalance := 0 }, pool,
    ⟨poolId, initialSov, initialCbe, k, initialAmmPrice, finalCurvePrice⟩,
    .ammSeeded token.tokenId poolId initialSov initialCbe token.treasuryBalance blockHeight timestamp)

/-! ## Seeding -/

/-- The tokens that are worth the reserve at the final price, rounded down. -/
def seedTokens (token : BondingCurveToken) : Nat := token.reserveBalance * priceScale / token.currentPrice

def seededPool (token : BondingCurveToken) : PolPool where
  tokenId := token.tokenId
  initialized := true
  feeBps := Swap.polFeeBps
  sovReserve := token.reserveBalance
  tokenReserve := token.seedTokens
  k := token.reserveBalance * token.seedTokens
  totalFeesSov := 0

def migrated (token : BondingCurveToken) : BondingCurveToken :=
  { token with
    phase := .amm
    ammPoolId := some (derivePoolId token.tokenId)
    reserveBalance := 0
    treasuryBalance := 0 }

/-- What is asked of a reserve and a price apart from continuity. -/
structure Seedable (token : BondingCurveToken) : Prop where
  phase : token.phase = .graduated
  poolId : token.ammPoolId = none
  price : 0 < token.currentPrice
  liquid : minimumAmmLiquidity ≤ token.reserveBalance
  sov : token.reserveBalance < 2 ^ 64
  tokens : token.seedTokens < 2 ^ 64
  enough : polMinimumInitialLiquidity ≤ token.seedTokens

variable {derivePoolId} {token : BondingCurveToken}

theorem div_div_eq_iff {n d : Nat} (hpos : 0 < n / d) : n / (n / d) = d ↔ n % d < n / d := by
  have hsplit : n / (n / d) = d + n % d / (n / d) := by
    calc n / (n / d) = ((n / d) * d + n % d) / (n / d) := by rw [Nat.mul_comm, Nat.div_add_mod]
      _ = d + n % d / (n / d) := Nat.mul_add_div hpos d (n % d)
  rw [hsplit, Nat.add_eq_left, Nat.div_eq_zero_iff_lt hpos]

theorem initializePool_eq (token : BondingCurveToken) (h : token.Seedable) :
    (PolPool.new token.tokenId).initializePool token.reserveBalance token.seedTokens = .ok token.seededPool := by
  have hk : token.reserveBalance * token.seedTokens ≤ u128Max :=
    Nat.le_trans (Nat.mul_le_mul (Nat.le_pred_of_lt h.sov) (Nat.le_pred_of_lt h.tokens)) (by decide)
  have hliquid : ¬ (token.reserveBalance < polMinimumInitialLiquidity ∨ token.seedTokens < polMinimumInitialLiquidity) :=
    not_or.mpr ⟨Nat.not_lt.mpr h.liquid, Nat.not_lt.mpr h.enough⟩
  simp only [PolPool.initializePool, PolPool.new, Bool.false_eq_true, if_false, if_neg hliquid, checkedMulU128, if_pos hk]
  rfl

theorem createPolPool_eq_ok (h : token.Seedable) {blockHeight timestamp : Nat}
    {out : BondingCurveToken × PolPool × AmmPoolCreationResult × BondingCurveEvent} :
    token.createPolPoolForGraduatedToken derivePoolId blockHeight timestamp = .ok out ↔
      token.reserveBalance * priceScale / token.seedTokens = token.currentPrice ∧
        out = (token.migrated derivePoolId, token.seededPool,
          ⟨derivePoolId token.tokenId, token.reserveBalance, token.seedTokens,
            token.reserveBalance * token.seedTokens, token.currentPrice, token.currentPrice⟩,
          .ammSeeded token.tokenId (derivePoolId token.tokenId) token.reserveBalance token.seedTokens
            token.treasuryBalance blockHeight timestamp) := by
  have hscaled : token.reserveBalance * priceScale ≤ u128Max :=
    Nat.le_trans (Nat.mul_le_mul (Nat.le_pred_of_lt h.sov) (Nat.le_refl priceScale)) (by decide)
  have hk : token.reserveBalance * token.seedTokens ≤ u128Max :=
    Nat.le_trans (Nat.mul_le_mul (Nat.le_pred_of_lt h.sov) (Nat.le_pred_of_lt h.tokens)) (by decide)
  have hpos : token.seedTokens ≠ 0 := Nat.ne_of_gt (Nat.lt_of_lt_of_le (by decide) h.enough)
  have hprice : token.currentPrice ≠ 0 := Nat.ne_of_gt h.price
  have hpool := initializePool_eq token h
  simp only [createPolPoolForGraduatedToken, guard_eq_ok, bind_eq_ok, okOr_eq_ok, mapError_eq_ok, pure_eq_ok,
    PolPool.tryU64_eq_some, checkedMulU128_eq_some, checkedDiv_eq_some, completeMigration, requirePhase_eq_ok, h.poolId]
  constructor
  · rintro ⟨-, -, -, _, ⟨-, rfl⟩, _, ⟨-, rfl⟩, _, ⟨-, rfl⟩, -, _, ⟨-, rfl⟩, _, ⟨-, rfl⟩, _, ⟨-, rfl⟩, hcont, _, ⟨-, rfl⟩,
      pool, hinit, -, _, ⟨_, -, rfl⟩, rfl⟩
    have hprice := not_not.mp hcont
    obtain rfl : token.seededPool = pool := Except.ok.inj (hpool.symm.trans hinit)
    exact ⟨hprice, by rw [hprice]; rfl⟩
  · rintro ⟨hcont, rfl⟩
    refine ⟨not_not.mpr h.phase, Nat.not_lt.mpr h.liquid, hprice, _, ⟨hscaled, rfl⟩, _, ⟨hprice, rfl⟩, _, ⟨h.tokens, rfl⟩,
      hpos, _, ⟨hk, rfl⟩, _, ⟨hscaled, rfl⟩, _, ⟨hpos, rfl⟩, not_not.mpr hcont, _, ⟨h.sov, rfl⟩, _, hpool,
      by simp, _, ⟨(), h.phase, rfl⟩, ?_⟩
    rw [show token.reserveBalance * priceScale / (token.reserveBalance * priceScale / token.currentPrice) =
      token.currentPrice from hcont]
    rfl

/-- A graduated token migrates at its final price exactly when the remainder of the division by that price is below the
quotient, and the price fits the type of the pool's. -/
theorem migrates_at_final_price_iff (h : token.Seedable) (blockHeight timestamp : Nat) :
    (∃ token' pool result event,
      token.createPolPoolForGraduatedToken derivePoolId blockHeight timestamp = .ok (token', pool, result, event) ∧
        pool.sovReserve = token.reserveBalance ∧ pool.getTokenPrice = .ok token.currentPrice ∧
        token'.phase = .amm ∧ token'.reserveBalance = 0) ↔
      token.reserveBalance * priceScale % token.currentPrice < token.reserveBalance * priceScale / token.currentPrice ∧
        token.currentPrice < 2 ^ 64 := by
  have hpos : 0 < token.seedTokens := Nat.lt_of_lt_of_le (by decide) h.enough
  have hscaled : token.reserveBalance * 10 ^ 8 ≤ u128Max :=
    Nat.le_trans (Nat.mul_le_mul (Nat.le_pred_of_lt h.sov) (Nat.le_refl _)) (by decide)
  rw [← div_div_eq_iff hpos]
  constructor
  · rintro ⟨_, _, _, _, hcreate, -, hprice, -, -⟩
    exact ⟨((createPolPool_eq_ok h).mp hcreate).1, (PolPool.getTokenPrice_eq_ok.mp hprice).2.2.2.2⟩
  · rintro ⟨hcont, hfits⟩
    exact ⟨_, _, _, _, (createPolPool_eq_ok h).mpr ⟨hcont, rfl⟩, rfl,
      PolPool.getTokenPrice_eq_ok.mpr ⟨rfl, Nat.ne_of_gt hpos, hscaled, hcont, hfits⟩, rfl, rfl⟩

/-! ### On the default curve -/

def graduatedToken (supply reserve : Nat) : BondingCurveToken where
  tokenId := 7
  phase := .graduated
  totalSupply := supply
  reserveBalance := reserve
  curveType := .piecewiseLinear .cbeDefault
  threshold := .reserveAmount 1000000
  sellEnabled := false
  ammPoolId := none
  deployedAtTimestamp := 0
  treasuryBalance := 0
  graduationPendingSinceBlock := none
  lastOraclePrice := none
  lastOraclePriceTimestamp := none

theorem seedable_graduatedToken : (graduatedToken 0 1000000).Seedable ∧ (graduatedToken (9 * 10 ^ 18) 2000000).Seedable :=
  ⟨⟨rfl, rfl, by decide, by decide, by decide, by decide, by decide⟩,
    ⟨rfl, rfl, by decide, by decide, by decide, by decide, by decide⟩⟩

/-- At the start of the curve the price is small beside the number of tokens. -/
theorem migrates_at_first_price :
    ∃ token' pool result event,
      (graduatedToken 0 1000000).createPolPoolForGraduatedToken id 1 1 = .ok (token', pool, result, event) ∧
        pool.sovReserve = 1000000 ∧ pool.getTokenPrice = .ok 31335 ∧ token'.phase = .amm ∧ token'.reserveBalance = 0 :=
  (migrates_at_final_price_iff seedable_graduatedToken.1 1 1).mpr (by decide)

/-- Near the end of the curve 1311205 tokens are worth the reserve of two million at the price of 152531335, and the pool
would start at a price that is higher by 115. -/
theorem migration_blocked_by_rounding :
    (graduatedToken (9 * 10 ^ 18) 2000000).Seedable ∧
      (graduatedToken (9 * 10 ^ 18) 2000000).createPolPoolForGraduatedToken id 1 1 =
        .error (.invalidParameters "Price continuity check failed") :=
  ⟨seedable_graduatedToken.2, by decide +kernel⟩

end BondingCurveToken

end SovereignNetwork.BondingCurve
