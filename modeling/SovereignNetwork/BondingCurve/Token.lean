import Mathlib.Algebra.Group.Int.Defs
import SovereignNetwork.Execution.Types
import SovereignNetwork.Lib.Except

/-!
# Tokens on a bonding curve

A token is sold along a piecewise linear curve until its reserve is worth enough, then it graduates. Balances and prices are
`u128`, heights and times are `u64`. A call that can fail after it has written returns its result together with the token it
leaves. The name, the symbol and the creator of a token are left out.
-/

namespace SovereignNetwork.BondingCurve

open Lib
open Execution (PublicKey)

/-! ## Prices -/

def priceScale : Nat := 10 ^ 8

def combinedScale : Int := 10 ^ 16

def tokenScale : Nat := 10 ^ 18

structure SupplyBand where
  startSupply : Nat
  endSupply : Nat
  slope : Nat
  baseOffset : Int
  deriving DecidableEq

structure PiecewiseLinearCurve where
  bands : List SupplyBand
  bands_ne_nil : bands ≠ []
  deriving DecidableEq

def saturateI128 (x : Int) : Int := max (-2 ^ 127) (min x (2 ^ 127 - 1))

namespace PiecewiseLinearCurve

def bandForSupply (curve : PiecewiseLinearCurve) (supply : Nat) : SupplyBand :=
  (curve.bands.find? fun b => supply ≥ b.startSupply ∧ supply < b.endSupply).getD
    (curve.bands.getLast curve.bands_ne_nil)

def priceAt (curve : PiecewiseLinearCurve) (supply : Nat) : Nat :=
  let band := curve.bandForSupply supply
  let slopeComponent := saturateI128 (band.slope * supply) / combinedScale
  let price := saturateI128 (band.baseOffset + slopeComponent)
  (max price 1).toNat

/-- The bands of the CBE token, with the offsets that make the price continuous. -/
def cbeDefault : PiecewiseLinearCurve where
  bands :=
    [⟨0, 10 * 10 ^ 17, 25000, 31335⟩,
      ⟨10 * 10 ^ 17, 30 * 10 ^ 17, 75000, -4968665⟩,
      ⟨30 * 10 ^ 17, 60 * 10 ^ 17, 150000, -27468665⟩,
      ⟨60 * 10 ^ 17, 100 * 10 ^ 17, 300000, -117468665⟩]
  bands_ne_nil := by simp

end PiecewiseLinearCurve

inductive CurveType
  | piecewiseLinear (curve : PiecewiseLinearCurve)
  deriving DecidableEq

/-- A supply beyond `u64` has the price zero. -/
def CurveType.calculatePrice : CurveType → Nat → Nat
  | piecewiseLinear curve, supply => if supply < 2 ^ 64 then curve.priceAt supply else 0

/-! ## Thresholds -/

def usdPriceScale : Nat := 10 ^ 8

def maxOraclePriceAgeSeconds : Nat := 300

inductive Threshold
  | reserveAmount (minReserve : Nat)
  | supplyAmount (minSupply : Nat)
  | timeAndReserve (minTimeSeconds minReserve : Nat)
  | timeAndSupply (minTimeSeconds minSupply : Nat)
  | reserveValueUsd (thresholdUsd maxPriceAgeSeconds confirmationBlocks : Nat)
  deriving DecidableEq

namespace Threshold

def isMet : Threshold → Nat → Nat → Nat → Bool
  | reserveAmount minReserve, reserve, _, _ => reserve ≥ minReserve
  | supplyAmount minSupply, _, supply, _ => supply ≥ minSupply
  | timeAndReserve minTime minReserve, reserve, _, elapsed => elapsed ≥ minTime ∧ reserve ≥ minReserve
  | timeAndSupply minTime minSupply, _, supply, elapsed => elapsed ≥ minTime ∧ supply ≥ minSupply
  | reserveValueUsd .., _, _, _ => false

/-- A value that overflows does not meet the threshold. -/
def isMetWithOracle : Threshold → Nat → Nat → Nat → Nat → Bool
  | reserveValueUsd thresholdUsd maxPriceAge confirmationBlocks, reserveSov, sovUsdPrice, priceAge, pendingBlocks =>
    if priceAge > maxPriceAge then false
    else if pendingBlocks > 0 ∧ pendingBlocks < confirmationBlocks then false
    else
      match checkedMulU128 reserveSov sovUsdPrice with
      | none => false
      | some numerator => numerator / (tokenScale * usdPriceScale) ≥ thresholdUsd
  | _, _, _, _, _ => false

def description : Threshold → String
  | reserveAmount r => s!"Reserve >= ${r / 100}"
  | supplyAmount s => s!"Supply >= {s / tokenScale} tokens"
  | timeAndReserve minTime minReserve => s!"Time >= {minTime}s AND Reserve >= ${minReserve / 100}"
  | timeAndSupply minTime minSupply => s!"Time >= {minTime}s AND Supply >= {minSupply / 100000000} tokens"
  | reserveValueUsd usd maxPriceAge confirmation =>
    s!"Reserve Value >= ${usd} USD (max_price_age: {maxPriceAge}s, confirmation: {confirmation} blocks)"

end Threshold

/-! ## Tokens -/

inductive Phase
  | curve
  | graduated
  | amm
  deriving DecidableEq

inductive CurveError
  | invalidPhase (current required : Phase)
  | insufficientReserve
  | zeroAmount
  | overflow
  | invalidParameters (message : String)
  | thresholdNotMet
  deriving DecidableEq

inductive BondingCurveEvent
  | tokenPurchased (tokenId buyer : Bytes 32) (stableAmount tokenAmount price blockHeight timestamp : Nat)
  | tokenSold (tokenId seller : Bytes 32) (tokenAmount stableAmount price blockHeight timestamp : Nat)
  | graduated (tokenId : Bytes 32) (finalReserve finalSupply : Nat) (thresholdMet : String) (blockHeight timestamp : Nat)
  | ammSeeded (tokenId poolId : Bytes 32) (sovAmount tokenAmount stableToTreasury blockHeight timestamp : Nat)
  deriving DecidableEq

structure BondingCurveToken where
  tokenId : Bytes 32
  phase : Phase
  totalSupply : Nat
  reserveBalance : Nat
  curveType : CurveType
  threshold : Threshold
  sellEnabled : Bool
  ammPoolId : Option (Bytes 32)
  deployedAtTimestamp : Nat
  treasuryBalance : Nat
  graduationPendingSinceBlock : Option Nat
  lastOraclePrice : Option Nat
  lastOraclePriceTimestamp : Option Nat
  deriving DecidableEq

namespace BondingCurveToken

def requirePhase (token : BondingCurveToken) (required : Phase) : Except CurveError Unit := do
  if token.phase ≠ required then
    throw (.invalidPhase token.phase required)

theorem requirePhase_eq_ok {token : BondingCurveToken} {required : Phase} {u : Unit} :
    token.requirePhase required = .ok u ↔ token.phase = required := by
  unfold requirePhase
  split
  · next hne => exact ⟨nofun, fun h => absurd h hne⟩
  · next heq => exact ⟨fun _ => not_not.mp heq, fun _ => rfl⟩

def currentPrice (token : BondingCurveToken) : Nat := token.curveType.calculatePrice token.totalSupply

/-! ### Trades -/

def calculateBuy (token : BondingCurveToken) (stableAmount : Nat) : Except CurveError Nat := do
  if stableAmount = 0 then
    throw .zeroAmount
  token.requirePhase .curve
  let price := token.currentPrice
  if price = 0 then
    throw (.invalidParameters "Price is zero")
  let scaled ← okOr (checkedMulU128 stableAmount tokenScale) .overflow
  let tokens ← okOr (checkedDiv scaled price) .overflow
  if tokens = 0 then
    throw .zeroAmount
  return tokens

def calculateSell (token : BondingCurveToken) (tokenAmount : Nat) : Except CurveError Nat := do
  if tokenAmount = 0 then
    throw .zeroAmount
  token.requirePhase .curve
  if ¬ token.sellEnabled then
    throw (.invalidParameters "Selling is disabled")
  let scaled ← okOr (checkedMulU128 tokenAmount token.currentPrice) .overflow
  let stable ← okOr (checkedDiv scaled tokenScale) .overflow
  if stable > token.reserveBalance then
    throw .insufficientReserve
  return stable

/-- The tokens and the part of the amount that goes to the reserve. -/
def quoteBuy (token : BondingCurveToken) (stableAmount : Nat) : Except CurveError (Nat × Nat) := do
  let tokenAmount ← token.calculateBuy stableAmount
  let scaled ← okOr (checkedMulU128 stableAmount 2) .overflow
  let toReserve ← okOr (checkedDiv scaled 5) .overflow
  return (tokenAmount, toReserve)

/-- The balances are written one by one, and those before an overflow stay. -/
def buy (token : BondingCurveToken) (buyer : PublicKey) (stableAmount blockHeight timestamp : Nat) :
    Except CurveError (Nat × BondingCurveEvent) × BondingCurveToken :=
  match token.quoteBuy stableAmount with
  | .error e => (.error e, token)
  | .ok (tokenAmount, toReserve) =>
    match checkedAddU128 token.reserveBalance toReserve with
    | none => (.error .overflow, token)
    | some reserve =>
      let token := { token with reserveBalance := reserve }
      match checkedAddU128 token.treasuryBalance (stableAmount - toReserve) with
      | none => (.error .overflow, token)
      | some treasury =>
        let token := { token with treasuryBalance := treasury }
        match checkedAddU128 token.totalSupply tokenAmount with
        | none => (.error .overflow, token)
        | some supply =>
          let token := { token with totalSupply := supply }
          (.ok (tokenAmount, .tokenPurchased token.tokenId buyer.keyId stableAmount tokenAmount token.currentPrice
            blockHeight timestamp), token)

/-- The reserve is written before the supply is checked. -/
def sell (token : BondingCurveToken) (seller : PublicKey) (tokenAmount blockHeight timestamp : Nat) :
    Except CurveError (Nat × BondingCurveEvent) × BondingCurveToken :=
  match token.calculateSell tokenAmount with
  | .error e => (.error e, token)
  | .ok stableAmount =>
    match checkedSub token.reserveBalance stableAmount with
    | none => (.error .overflow, token)
    | some reserve =>
      let token := { token with reserveBalance := reserve }
      match checkedSub token.totalSupply tokenAmount with
      | none => (.error .overflow, token)
      | some supply =>
        let token := { token with totalSupply := supply }
        (.ok (stableAmount, .tokenSold token.tokenId seller.keyId tokenAmount stableAmount token.currentPrice
          blockHeight timestamp), token)

/-! ### Graduation -/

/-- With a threshold in USD, the price is the one that was stored. -/
def canGraduate (token : BondingCurveToken) (currentTimestamp currentBlock : Nat) : Bool :=
  if token.phase ≠ .curve then false
  else
    match token.threshold with
    | .reserveValueUsd _ _ confirmationBlocks =>
      match token.lastOraclePrice, token.lastOraclePriceTimestamp with
      | some price, some priceTs =>
        if currentTimestamp - priceTs > maxOraclePriceAgeSeconds then false
        else if ¬ token.threshold.isMetWithOracle token.reserveBalance price 0 0 then false
        else
          match token.graduationPendingSinceBlock with
          | some pendingSince => currentBlock - pendingSince ≥ confirmationBlocks
          | none => false
      | _, _ => false
    | threshold => threshold.isMet token.reserveBalance token.totalSupply (currentTimestamp - token.deployedAtTimestamp)

/-- A stale price leaves the token as it is. A price at which the threshold is not met clears what was stored, and one at
which it is met is stored if none is. -/
def checkGraduationWithOracle (token : BondingCurveToken)
    (sovUsdPrice priceTimestamp currentBlock currentTimestamp : Nat) : Bool × BondingCurveToken :=
  if token.phase ≠ .curve then (false, token)
  else
    match token.threshold with
    | .reserveValueUsd _ maxPriceAgeSeconds confirmationBlocks =>
      let priceAgeSeconds := currentTimestamp - priceTimestamp
      if priceAgeSeconds > maxPriceAgeSeconds then (false, token)
      else if ¬ token.threshold.isMetWithOracle token.reserveBalance sovUsdPrice priceAgeSeconds 0 then
        (false, { token with
          graduationPendingSinceBlock := none
          lastOraclePrice := none
          lastOraclePriceTimestamp := none })
      else
        let token :=
          if token.graduationPendingSinceBlock.isNone then
            { token with
              graduationPendingSinceBlock := some currentBlock
              lastOraclePrice := some sovUsdPrice
              lastOraclePriceTimestamp := some priceTimestamp }
          else token
        let pendingBlocks := currentBlock - token.graduationPendingSinceBlock.getD currentBlock
        (pendingBlocks ≥ confirmationBlocks, token)
    | _ => (token.canGraduate currentTimestamp currentBlock, token)

def graduate (token : BondingCurveToken) (currentTimestamp blockHeight : Nat) :
    Except CurveError (BondingCurveEvent × BondingCurveToken) := do
  if ¬ token.canGraduate currentTimestamp blockHeight then
    throw .thresholdNotMet
  let token := { token with
    phase := .graduated
    graduationPendingSinceBlock := none
    lastOraclePrice := none
    lastOraclePriceTimestamp := none }
  return (.graduated token.tokenId token.reserveBalance token.totalSupply token.threshold.description blockHeight
    currentTimestamp, token)

def completeMigration (token : BondingCurveToken) (ammPoolId : Bytes 32) : Except CurveError BondingCurveToken := do
  token.requirePhase .graduated
  return { token with phase := .amm, ammPoolId := some ammPoolId }

end BondingCurveToken

end SovereignNetwork.BondingCurve
