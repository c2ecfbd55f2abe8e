import SovereignNetwork.Types

/-!
# The CBE bonding curve

Prices and costs of the canonical five-band curve, in 18-decimal atoms, and the economic state that the executor
keeps of it. Each loop of the source recurses on a number that bounds its iterations.
-/

namespace SovereignNetwork.Execution

inductive MathError
  | overflow
  | divisionByZero
  | downcastOverflow
  deriving DecidableEq

def MathError.debug : MathError → String
  | .overflow => "Overflow"
  | .divisionByZero => "DivisionByZero"
  | .downcastOverflow => "DowncastOverflow"

/-! ## Arithmetic -/

def u256Max : Nat := 2 ^ 256 - 1

def checkedAddU256 (x y : Nat) : Except MathError Nat := if x + y ≤ u256Max then .ok (x + y) else .error .overflow

def checkedMulU256 (x y : Nat) : Except MathError Nat := if x * y ≤ u256Max then .ok (x * y) else .error .overflow

def checkedSubU256 (x y : Nat) : Except MathError Nat := if y ≤ x then .ok (x - y) else .error .overflow

def u256ToU128 (x : Nat) : Except MathError Nat := if x > u128Max then .error .downcastOverflow else .ok x

def mulDivFloorU128 (a b den : Nat) : Except MathError Nat := do
  if den = 0 then
    throw .divisionByZero
  let p ← checkedMulU256 a b
  u256ToU128 (p / den)

/-- The bisection of `integer_sqrt_u256`, which halves `hi - lo` at each step. -/
def integerSqrtLoop (n : Nat) : (fuel lo hi : Nat) → Nat
  | 0, lo, _ => lo
  | fuel + 1, lo, hi =>
    if lo + 1 < hi then
      let mid := lo + (hi - lo) / 2
      if mid ≤ n / mid then integerSqrtLoop n fuel mid hi else integerSqrtLoop n fuel lo mid
    else lo

theorem integerSqrtLoop_spec {n fuel lo hi : Nat} (hfuel : hi ≤ lo + fuel) (hlo : lo * lo ≤ n) (hhi : n < hi * hi) :
    integerSqrtLoop n fuel lo hi * integerSqrtLoop n fuel lo hi ≤ n ∧
      n < (integerSqrtLoop n fuel lo hi + 1) * (integerSqrtLoop n fuel lo hi + 1) := by
  induction fuel generalizing lo hi with
  | zero =>
    have hle : hi * hi ≤ lo * lo := Nat.mul_self_le_mul_self hfuel
    omega
  | succ fuel ih =>
    rw [integerSqrtLoop]
    split
    · next hlt =>
      have hmid : 0 < lo + (hi - lo) / 2 := by omega
      dsimp only
      split
      · next hle => exact ih (by omega) ((Nat.le_div_iff_mul_le hmid).mp hle) hhi
      · next hgt => exact ih (by omega) hlo (Nat.lt_of_not_le fun h => hgt ((Nat.le_div_iff_mul_le hmid).mpr h))
    · exact ⟨hlo, Nat.lt_of_lt_of_le hhi (Nat.mul_self_le_mul_self (by omega))⟩

def integerSqrtU256 (n : Nat) : Nat := if n ≤ 1 then n else integerSqrtLoop n (2 ^ 128) 0 (2 ^ 128)

/-! ## Constants -/

def SCALE : Nat := 10 ^ 18

def slopeDen : Nat := 100000000000000

def gradThreshold : Nat := 2745966 * SCALE

def maxGrossSovPerTx : Nat := 10 ^ 24

def maxDeltaSPerTx : Nat := 100000000000 * SCALE

def maxSupply : Nat := 100000000000 * SCALE

def debtCeiling : Nat := 147900000 * SCALE

def genesisTreasuryAllocation : Nat := 20000000000 * SCALE

def sovTreasurySharePct : Nat := 20

def reserveSharePct : Nat := 32

def payrollGrossNum : Nat := 25

def payrollGrossDen : Nat := 12

def payrollTreasuryPct : Nat := 20

def payrollReservePct : Nat := 32

structure BondingCurveBand where
  index : Nat
  startSupply : Nat
  endSupply : Nat
  slopeNum : Nat
  slopeDen : Nat
  pStart : Nat
  deriving DecidableEq

def band0 : BondingCurveBand := ⟨0, 0, 10000000000 * SCALE, 1, slopeDen, 313345700000000⟩

def band1 : BondingCurveBand := ⟨1, 10000000000 * SCALE, 30000000000 * SCALE, 2, slopeDen, 413345700000000⟩

def band2 : BondingCurveBand := ⟨2, 30000000000 * SCALE, 60000000000 * SCALE, 3, slopeDen, 813345700000000⟩

def band3 : BondingCurveBand := ⟨3, 60000000000 * SCALE, 85000000000 * SCALE, 4, slopeDen, 1713345700000000⟩

def band4 : BondingCurveBand := ⟨4, 85000000000 * SCALE, maxSupply, 5, slopeDen, 2713345700000000⟩

def BANDS : List BondingCurveBand := [band0, band1, band2, band3, band4]

/-! ## Prices and costs -/

def bandLocalSupply (supply : Nat) (band : BondingCurveBand) : Except MathError Nat :=
  checkedSubU256 supply band.startSupply

/-- The last band includes its end. -/
def bandForSupply (supply : Nat) : Except MathError BondingCurveBand :=
  if supply > maxSupply then .error .overflow
  else
    match BANDS.find? fun band =>
      if band.index = BANDS.length - 1 then band.startSupply ≤ supply && supply ≤ band.endSupply
      else band.startSupply ≤ supply && decide (supply < band.endSupply) with
    | some band => .ok band
    | none => .error .overflow

/-- For a burn each band includes its end, and the first one its start. -/
def bandForRedemptionSupply (supply : Nat) : BondingCurveBand :=
  (BANDS.find? fun band =>
    if band.index = 0 then band.startSupply ≤ supply && supply ≤ band.endSupply
    else decide (band.startSupply < supply) && supply ≤ band.endSupply).getD band0

def priceAtSupplyInBand (supply : Nat) (band : BondingCurveBand) : Except MathError Nat := do
  if supply < band.startSupply ∨ supply > band.endSupply then
    throw .overflow
  let loc ← bandLocalSupply supply band
  let slopeComponent ← mulDivFloorU128 band.slopeNum loc band.slopeDen
  match checkedAddU128 band.pStart slopeComponent with
  | some p => pure p
  | none => throw .overflow

/-- An error where the code unwinds. -/
def priceAtSupply (supply : Nat) : Except String Nat :=
  match bandForSupply supply with
  | .error _ => .error "canonical price supply out of range"
  | .ok band =>
    match priceAtSupplyInBand supply band with
    | .error _ => .error "canonical price evaluation failed"
    | .ok p => .ok p

def costSingleBand (sFrom sTo : Nat) (band : BondingCurveBand) : Except MathError Nat := do
  if sFrom > sTo ∨ sFrom < band.startSupply ∨ sTo > band.endSupply then
    throw .overflow
  let fromLocal ← bandLocalSupply sFrom band
  let toLocal ← bandLocalSupply sTo band
  let deltaS ← checkedSubU256 sTo sFrom
  let sumLocal ← checkedAddU256 toLocal fromLocal
  let slopeSum ← checkedMulU256 band.slopeNum sumLocal
  let numerator ← checkedMulU256 slopeSum deltaS
  let twoDen ← checkedMulU256 2 band.slopeDen
  let denominator ← checkedMulU256 twoDen SCALE
  if numerator ≠ 0 ∧ denominator = 0 then
    throw .divisionByZero
  let term1 := if numerator = 0 then 0 else numerator / denominator
  let pTotal ← checkedMulU256 band.pStart deltaS
  let cost ← checkedAddU256 term1 (pTotal / SCALE)
  u256ToU128 cost

def inverseMint (reserveCredit sC : Nat) (band : BondingCurveBand) : Except MathError Nat := do
  if sC < band.startSupply ∨ sC > band.endSupply then
    throw .overflow
  if band.slopeNum = 0 then
    mulDivFloorU128 reserveCredit SCALE band.pStart
  else
    let pLocal ← priceAtSupplyInBand sC band
    let pLocalSq ← checkedMulU256 pLocal pLocal
    let twoM ← checkedMulU256 2 band.slopeNum
    let twoMR ← checkedMulU256 twoM reserveCredit
    let scaled ← checkedMulU256 twoMR SCALE
    let discriminant ← checkedAddU256 pLocalSq (scaled / band.slopeDen)
    let numerator ← checkedSubU256 (integerSqrtU256 discriminant) pLocal
    let deltaS ← checkedMulU256 numerator band.slopeDen
    u256ToU128 (deltaS / band.slopeNum)

/-- The bisection for the largest amount that the reserve pays for. Each step shrinks `low .. high`. -/
def mintSearch (remaining current : Nat) (band : BondingCurveBand) : (fuel low high : Nat) → Except MathError Nat
  | 0, low, _ => .ok low
  | fuel + 1, low, high =>
    if low < high then do
      let mid := (low + high + 1) / 2
      if low + high + 1 > u128Max then
        throw .overflow
      let midCost ← costSingleBand current (wrapU128 (current + mid)) band
      if midCost ≤ remaining then mintSearch remaining current band fuel mid high
      else mintSearch remaining current band fuel low (mid - 1)
    else .ok low

/-- The loop over the bands. `fuel` is at least what is left of the supply, of which each band takes some. -/
def mintLoop : (fuel remaining current minted : Nat) → Except MathError Nat
  | 0, _, _, minted => .ok minted
  | fuel + 1, remaining, current, minted =>
    if remaining > 0 ∧ current < maxSupply then do
      let band ← bandForSupply current
      let bandCapacity ← checkedSubU256 band.endSupply current
      if bandCapacity = 0 then
        return minted
      let fullBandCost ← costSingleBand current band.endSupply band
      if fullBandCost ≤ remaining then
        match checkedAddU128 minted bandCapacity with
        | some minted => mintLoop fuel (remaining - fullBandCost) band.endSupply minted
        | none => throw .overflow
      else
        let inverse ← inverseMint remaining current band
        let estimate := min inverse bandCapacity
        let estimateCost ← costSingleBand current (wrapU128 (current + estimate)) band
        let high := if estimateCost ≤ remaining then bandCapacity else estimate
        let deltaS ← mintSearch remaining current band high 0 high
        match checkedAddU128 minted deltaS with
        | some minted => pure minted
        | none => throw .overflow
    else .ok minted

def mintWithReserve (reserveCredit sC : Nat) : Except MathError Nat :=
  if sC > maxSupply then .error .overflow else mintLoop (maxSupply - sC) reserveCredit sC 0

/-- The loop over the bands of a burn. Each band takes some of what is left to burn. -/
def payoutLoop : (fuel remaining current total : Nat) → Except MathError Nat
  | 0, _, _, total => .ok total
  | fuel + 1, remaining, current, total =>
    if remaining > 0 then do
      let band := bandForRedemptionSupply current
      let floor ← checkedSubU256 current remaining
      let bandFloor := max floor band.startSupply
      let bandPayout ← costSingleBand bandFloor current band
      match checkedAddU128 total bandPayout with
      | none => throw .overflow
      | some total =>
        let burnedHere ← checkedSubU256 current bandFloor
        let remaining ← checkedSubU256 remaining burnedHere
        payoutLoop fuel remaining bandFloor total
    else .ok total

def payoutForBurn (amountCbe sC : Nat) : Except MathError Nat :=
  if amountCbe > sC then .error .overflow else payoutLoop amountCbe amountCbe sC 0

/-! ## Economic state -/

structure PoolState where
  balance : Nat
  ceiling : Nat
  deriving DecidableEq

def PoolState.mint (p : PoolState) (amount : Nat) : Except String PoolState :=
  match checkedAddU128 p.balance amount with
  | none => .error "pool balance overflow"
  | some new => if new > p.ceiling then .error "would exceed pool ceiling" else .ok { p with balance := new }

structure PreBackedEntry where
  blockHeight : Nat
  amountCbe : Nat
  recipient : Bytes 32
  deliverableHash : Bytes 32
  satisfied : Bool
  deriving DecidableEq

inductive DebtState
  | green
  | yellow
  | orange
  | red
  deriving DecidableEq

def computeDebtState (outstanding : Nat) : DebtState :=
  if outstanding ≤ debtCeiling / 4 then .green
  else if outstanding ≤ debtCeiling / 2 then .yellow
  else if outstanding ≤ debtCeiling * 3 / 4 then .orange
  else .red

structure BondingCurveEconomicState where
  sC : Nat := 0
  reserveBalance : Nat := 0
  sovTreasuryCbeBalance : Nat := 0
  liquidityPoolBalance : Nat := 0
  totalSovMinted : Nat := 0
  graduated : Bool := false
  sellEnabled : Bool := false
  compensationPool : PoolState := ⟨0, 400000000 * SCALE⟩
  treasuryPool : PoolState := ⟨0, 200000000 * SCALE⟩
  liquidityPool : PoolState := ⟨0, 200000000 * SCALE⟩
  incentivePool : PoolState := ⟨0, 100000000 * SCALE⟩
  strategicReserve : PoolState := ⟨0, 100000000 * SCALE⟩
  outstandingPreBacked : Nat := 0
  preBackedQueue : List PreBackedEntry := []
  debtState : DebtState := .green
  genesisTreasuryAllocation : Nat := 0
  sovrnTotalSupply : Nat := 0
  deriving DecidableEq

def BondingCurveEconomicState.default : BondingCurveEconomicState := {}

/-- The loop of `satisfy_pre_backed`: the queue and the outstanding debt that `remaining` leaves. -/
def satisfyQueue : (remaining outstanding : Nat) → List PreBackedEntry → List PreBackedEntry × Nat
  | _, outstanding, [] => ([], outstanding)
  | remaining, outstanding, entry :: queue =>
    if entry.satisfied ∨ remaining = 0 then
      let (queue, outstanding) := satisfyQueue remaining outstanding queue
      (entry :: queue, outstanding)
    else if remaining ≥ entry.amountCbe then
      let (queue, outstanding) := satisfyQueue (remaining - entry.amountCbe) (outstanding - entry.amountCbe) queue
      ({ entry with satisfied := true } :: queue, outstanding)
    -- A partial satisfaction ends the loop.
    else (entry :: queue, outstanding)

def BondingCurveEconomicState.satisfyPreBacked (econ : BondingCurveEconomicState) (amount : Nat) :
    BondingCurveEconomicState :=
  let (queue, outstanding) := satisfyQueue amount econ.outstandingPreBacked econ.preBackedQueue
  { econ with preBackedQueue := queue, outstandingPreBacked := outstanding }

structure BondingCurveAccountState where
  keyId : Bytes 32
  balanceCbe : Nat
  balanceSov : Nat
  /-- A 48-bit number. -/
  nextNonce : Nat
  deriving DecidableEq

def nonce48Max : Nat := 2 ^ 48 - 1

end SovereignNetwork.Execution
