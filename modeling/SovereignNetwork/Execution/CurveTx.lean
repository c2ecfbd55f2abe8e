import SovereignNetwork.Execution.Contracts

/-!
# Bonding curve transactions

The canonical BUY_CBE and SELL_CBE payloads and the payroll mint.
-/

namespace SovereignNetwork.Execution

open Lib Mutator

variable (X : Externals) (E : BlockExecutor)

/-! ## The 88-byte payload -/

structure CurveOrder where
  chainId : Nat
  nonce : Nat
  sender : Address
  /-- `amount_in` of a buy, `amount_cbe` of a sale. -/
  amount : Nat
  /-- `max_price` of a buy, `min_payout` of a sale. -/
  bound : Nat
  expectedSC : Nat
  deriving DecidableEq

inductive CanonicalBondingCurveTx
  | buy (order : CurveOrder)
  | sell (order : CurveOrder)
  deriving DecidableEq

def CanonicalBondingCurveTx.order : CanonicalBondingCurveTx → CurveOrder
  | .buy order => order
  | .sell order => order

def CanonicalBondingCurveTx.isBuy : CanonicalBondingCurveTx → Bool
  | .buy _ => true
  | .sell _ => false

def curvePayloadLen : Nat := 88

def curveBuyAction : UInt8 := 1

def curveSellAction : UInt8 := 2

def encodeCurveOrder (action : UInt8) (order : CurveOrder) : List UInt8 :=
  [action] ++ toBeBytes 1 order.chainId ++ toBeBytes 6 order.nonce ++ hashBytes order.sender ++
    toBeBytes 16 order.amount ++ toBeBytes 16 order.bound ++ toBeBytes 16 order.expectedSC

def encodeCanonicalBondingCurveTx : CanonicalBondingCurveTx → List UInt8
  | .buy order => encodeCurveOrder curveBuyAction order
  | .sell order => encodeCurveOrder curveSellAction order

/-- Bytes `start .. start + len` as a number. -/
def beField (payload : List UInt8) (start len : Nat) : Nat := fromBeBytes ((payload.drop start).take len)

def decodeCurveOrder (payload : List UInt8) : CurveOrder where
  chainId := beField payload 1 1
  nonce := beField payload 2 6
  sender := BitVec.ofNat _ (beField payload 8 32)
  amount := beField payload 40 16
  bound := beField payload 56 16
  expectedSC := beField payload 72 16

/-- An action byte as `{:#04x}` prints it. -/
def actionHex (action : UInt8) : String := "0x" ++ hexEncode [action]

def decodeCanonicalBondingCurveTx (payload : List UInt8) : Except String CanonicalBondingCurveTx :=
  if payload.length ≠ curvePayloadLen then
    .error s!"invalid payload length: expected 88 bytes, got {payload.length}"
  else
    let action := payload.headD 0
    if action = curveBuyAction then .ok (.buy (decodeCurveOrder payload))
    else if action = curveSellAction then .ok (.sell (decodeCurveOrder payload))
    else .error s!"unknown action byte: {actionHex action}"

/-- The memo of the transaction, once its action fits the transaction type. -/
def extractBondingCurveEnvelope (tx : Transaction) (expectedBuy : Bool) : TxProg (List UInt8) := do
  let firstByte := tx.memo.head?
  if expectedBuy ∧ firstByte = some curveSellAction then
    .fail (.invalidType "Canonical SELL_CBE payload cannot execute as BondingCurveBuy")
  if !expectedBuy ∧ firstByte = some curveBuyAction then
    .fail (.invalidType "Canonical BUY_CBE payload cannot execute as BondingCurveSell")
  if tx.memo.length ≠ curvePayloadLen then
    .fail (.invalidType
      s!"Canonical curve payload must be exactly {curvePayloadLen} bytes, got {tx.memo.length}")
  return tx.memo

/-! ## Buying -/

/-- The shares of the treasury, of the reserve and of the liquidity pool. -/
def computeOnrampSplit (amountIn : Nat) : Nat × Nat × Nat :=
  let sovTreasuryCredit := wrapU128 (amountIn * sovTreasurySharePct) / 100
  let reserveCredit := wrapU128 (amountIn * reserveSharePct) / 100
  let liquidityCredit := wrappingSubU128 (wrappingSubU128 amountIn sovTreasuryCredit) reserveCredit
  (sovTreasuryCredit, reserveCredit, liquidityCredit)

def validateBuyLimits (amountIn deltaS maxPrice : Nat) : TxProg Unit := do
  if deltaS = 0 then
    .fail (.invalidType "BUY_CBE: zero tokens minted for given reserve credit")
  if deltaS > maxDeltaSPerTx then
    .fail (.invalidType s!"BUY_CBE: delta_s {deltaS} exceeds MAX_DELTA_S_PER_TX")
  if amountIn * SCALE > u256Max then
    .fail (.invalidType "BUY_CBE: slippage overflow in amount_in * SCALE")
  let effective := amountIn * SCALE / deltaS
  if effective > maxPrice then
    .fail (.invalidType s!"BUY_CBE: slippage — effective price {effective} > max_price {maxPrice}")

def addOrInvalid (x y : Nat) (message : String) : TxProg Nat :=
  requireSome (.invalidType message) (checkedAddU128 x y)

def mintPool (pool : PoolState) (amount : Nat) (context : String) : TxProg PoolState :=
  match pool.mint amount with
  | .ok pool => pure pool
  | .error e => .fail (.invalidType (context ++ e))

def applyBuyCbe (maxPrice amountIn : Nat) (sender : Address) (econ : BondingCurveEconomicState)
    (account : BondingCurveAccountState) (nextNonce : Nat) : TxProg Unit := do
  if amountIn > maxGrossSovPerTx then
    .fail (.invalidType s!"BUY_CBE: amount_in {amountIn} exceeds MAX_GROSS_SOV_PER_TX")
  let (sovTreasuryCredit, reserveCredit, liquidityCredit) := computeOnrampSplit amountIn
  let deltaS ← match mintWithReserve reserveCredit econ.sC with
    | .ok deltaS => pure deltaS
    | .error e => Prog.fail (.invalidType s!"BUY_CBE: mint overflow: {e.debug}")
  validateBuyLimits amountIn deltaS maxPrice
  let sC ← addOrInvalid econ.sC deltaS "BUY_CBE: s_c overflow"
  let reserveBalance ← addOrInvalid econ.reserveBalance reserveCredit "BUY_CBE: reserve overflow"
  let sovTreasury ← addOrInvalid econ.sovTreasuryCbeBalance sovTreasuryCredit "BUY_CBE: sov_treasury overflow"
  let liquidityPool ← mintPool econ.liquidityPool liquidityCredit "BUY_CBE: liquidity pool: "
  let econ := BondingCurveEconomicState.satisfyPreBacked { econ with
    sC := sC
    reserveBalance := reserveBalance
    sovTreasuryCbeBalance := sovTreasury
    liquidityPool := liquidityPool
    liquidityPoolBalance := liquidityPool.balance
    sovrnTotalSupply := saturatingAddU128 econ.sovrnTotalSupply liquidityCredit } liquidityCredit
  let econ := if econ.reserveBalance ≥ gradThreshold then { econ with graduated := true } else econ
  Sled.putCbeEconomicState econ
  Sled.putCbeAccountState sender { account with nextNonce := nextNonce }
  debitToken (canonicalSovTokenId X) sender amountIn
  creditToken X.deriveCbeTokenId sender deltaS
  if sovTreasuryCredit > 0 then
    creditToken (canonicalSovTokenId X) E.feeSinkAddress sovTreasuryCredit
    let totalSovMinted := (checkedAddU128 econ.totalSovMinted sovTreasuryCredit).getD econ.totalSovMinted
    Sled.putCbeEconomicState { econ with totalSovMinted := totalSovMinted }

/-! ## Selling -/

def applySellCbe (minPayout amountCbe : Nat) (sender : Address) (econ : BondingCurveEconomicState)
    (account : BondingCurveAccountState) (nextNonce : Nat) : TxProg Unit := do
  let sovOut ← match payoutForBurn amountCbe econ.sC with
    | .ok sovOut => pure sovOut
    | .error e => Prog.fail (.invalidType s!"SELL_CBE: payout_for_burn failed: {e.debug}")
  if sovOut = 0 then
    .fail (.invalidType "SELL_CBE: zero payout for given burn amount")
  if sovOut < minPayout then
    .fail (.invalidType s!"SELL_CBE: payout {sovOut} < min_payout {minPayout}")
  if econ.reserveBalance < sovOut then
    .fail (.invalidType s!"SELL_CBE: insolvent — reserve_balance {econ.reserveBalance} < sov_out {sovOut}")
  let sC ← requireSome (.invalidType "SELL_CBE: s_c underflow") (checkedSub econ.sC amountCbe)
  let reserveBalance ← requireSome (.invalidType "SELL_CBE: reserve underflow") (checkedSub econ.reserveBalance sovOut)
  Sled.putCbeEconomicState { econ with sC := sC, reserveBalance := reserveBalance }
  Sled.putCbeAccountState sender { account with nextNonce := nextNonce }
  debitToken X.deriveCbeTokenId sender amountCbe
  creditToken (canonicalSovTokenId X) sender sovOut

/-! ## Both -/

def applyCanonicalBondingCurveTx (payload : List UInt8) : TxProg CanonicalBondingCurveTx := do
  let curveTx ← match decodeCanonicalBondingCurveTx payload with
    | .ok curveTx => pure curveTx
    | .error e => Prog.fail (.invalidType s!"Invalid canonical curve payload: {e}")
  let order := curveTx.order
  if order.amount = 0 then
    .fail (.invalidType "Canonical curve tx: amount must be non-zero")
  let econ ← Sled.getCbeEconomicState
  if econ.graduated then
    .fail (.invalidType "CBE curve has graduated; BUY_CBE and SELL_CBE are no longer valid")
  if !curveTx.isBuy ∧ !econ.sellEnabled then
    .fail (.invalidType "SELL_CBE is disabled by protocol flag sell_enabled=false")
  let account ← Sled.getCbeAccountState order.sender
  if order.nonce ≠ account.nextNonce then
    .fail (.invalidNonce account.nextNonce order.nonce)
  if curveTx.isBuy then
    let sovBal ← Sled.getTokenBalance (canonicalSovTokenId X) order.sender
    if sovBal < order.amount then
      .fail (.invalidType s!"BUY_CBE: insufficient SOV balance (have {sovBal}, need {order.amount})")
  else
    let cbeBal ← Sled.getTokenBalance X.deriveCbeTokenId order.sender
    if cbeBal < order.amount then
      .fail (.invalidType s!"SELL_CBE: insufficient CBE balance (have {cbeBal}, need {order.amount})")
  if order.expectedSC ≠ econ.sC then
    .fail (.invalidType (s!"Canonical curve stale state: expected_s_c={order.expectedSC} does not match " ++
      s!"current s_c={econ.sC}"))
  let nextNonce := order.nonce + 1
  if nextNonce > nonce48Max then
    .fail (.invalidType "nonce overflow")
  match curveTx with
  | .buy _ => applyBuyCbe X E order.bound order.amount order.sender econ account nextNonce
  | .sell _ => applySellCbe X order.bound order.amount order.sender econ account nextNonce
  return curveTx

def applyCanonicalBondingCurveEnvelope (payload : List UInt8) (signer : Address) : TxProg CanonicalBondingCurveTx := do
  match decodeCanonicalBondingCurveTx payload with
  | .error e => .fail (.invalidType s!"Invalid canonical curve envelope: {e}")
  | .ok curveTx =>
    if signer ≠ curveTx.order.sender then
      .fail (.invalidType "Canonical curve signer does not match payload sender")
    applyCanonicalBondingCurveTx X E payload

def applyBondingCurveBuy (tx : Transaction) : TxProg Unit := do
  let payload ← extractBondingCurveEnvelope tx true
  let curveTx ← applyCanonicalBondingCurveEnvelope X E payload tx.signature.publicKey.keyId
  if !curveTx.isBuy then
    .fail (.invalidType "Canonical SELL_CBE payload cannot execute as BondingCurveBuy")

def applyBondingCurveSell (tx : Transaction) : TxProg Unit := do
  let payload ← extractBondingCurveEnvelope tx false
  let curveTx ← applyCanonicalBondingCurveEnvelope X E payload tx.signature.publicKey.keyId
  if curveTx.isBuy then
    .fail (.invalidType "Canonical BUY_CBE payload cannot execute as BondingCurveSell")

/-! ## Payroll -/

/-- What a payroll of `amountCbe` mints: the gross amount, the treasury's share and the reserve's. -/
def payrollSplit (amountCbe : Nat) : Option (Nat × Nat × Nat) :=
  match checkedMulU128 amountCbe payrollGrossNum with
  | none => none
  | some product =>
    let gross := product / payrollGrossDen
    let treasuryCredit := wrapU128 (gross * payrollTreasuryPct) / 100
    let baseReserve := wrapU128 (gross * payrollReservePct) / 100
    let roundingDust := wrappingSubU128 (wrappingSubU128 (wrappingSubU128 gross treasuryCredit) baseReserve) amountCbe
    some (gross, treasuryCredit, wrapU128 (baseReserve + roundingDust))

/-- The value of the reserve's share at the current price. -/
def sovrnMint (reserveCredit price : Nat) : Nat :=
  let product := if reserveCredit * price ≤ u256Max then reserveCredit * price else 0
  if product / SCALE > u128Max then 0 else product / SCALE

def applyPayrollMint (tx : Transaction) (blockHeight : Nat) : TxProg Unit := do
  let data ← requireSome (.invalidType "ProcessPayroll missing payload") tx.processPayrollData
  let amountCbe := data.amountCbe
  if amountCbe = 0 then
    .fail (.invalidType "PAYROLL_MINT: amount_cbe must be > 0")
  let (gross, treasuryCredit, reserveCredit) ←
    requireSome (.invalidType "PAYROLL_MINT: gross overflow") (payrollSplit amountCbe)
  let econ ← Sled.getCbeEconomicState
  let newOutstanding ← addOrInvalid econ.outstandingPreBacked gross "PAYROLL_MINT: outstanding overflow"
  if newOutstanding > debtCeiling then
    .fail (.invalidType (s!"PAYROLL_MINT: debt ceiling breached — outstanding {econ.outstandingPreBacked} + " ++
      s!"gross {gross} > ceiling {debtCeiling}"))
  let compensationPool ← mintPool econ.compensationPool amountCbe "PAYROLL_MINT: compensation pool: "
  let sovTreasury ← addOrInvalid econ.sovTreasuryCbeBalance treasuryCredit "PAYROLL_MINT: sov_treasury overflow"
  let reserveBalance ← addOrInvalid econ.reserveBalance reserveCredit "PAYROLL_MINT: reserve overflow"
  let price ← match priceAtSupply econ.sC with
    | .ok price => pure price
    | .error e => Prog.fail (.unwound e)
  Sled.putCbeEconomicState { econ with
    compensationPool := compensationPool
    sovTreasuryCbeBalance := sovTreasury
    reserveBalance := reserveBalance
    preBackedQueue := econ.preBackedQueue ++
      [⟨blockHeight, gross, data.collaboratorAddress, data.deliverableHash, false⟩]
    outstandingPreBacked := newOutstanding
    debtState := computeDebtState newOutstanding
    sovrnTotalSupply := saturatingAddU128 econ.sovrnTotalSupply (sovrnMint reserveCredit price) }
  creditToken X.deriveCbeTokenId data.collaboratorAddress amountCbe
  creditToken X.deriveCbeTokenId E.feeSinkAddress treasuryCredit

end SovereignNetwork.Execution
