import SovereignNetwork.Execution.Lemmas.Balances

/-!
# What the curve transactions stage
-/

namespace SovereignNetwork.Execution

open Lib Mutator

variable {X : Externals} {E : BlockExecutor} {s : AList Key.Val} {b : Batch Key.Val}
  {W : (k : Key) → Option k.Val → Prop}

/-! ## Checks -/

@[simp] theorem stage_addOrInvalid_eq_ok {x y : Nat} {message : String} {r : Nat × Batch Key.Val} :
    (addOrInvalid x y message).stage sledView s b = .ok r ↔ x + y ≤ u128Max ∧ (x + y, b) = r := by
  unfold addOrInvalid checkedAddU128
  by_cases h : x + y ≤ u128Max <;> simp [h, Prod.ext_iff]

@[simp] theorem ensures_addOrInvalid {x y : Nat} {message : String} {Q : Nat → Prop} :
    (addOrInvalid x y message).Ensures sledView s W Q ↔ (x + y ≤ u128Max → Q (x + y)) := by
  unfold addOrInvalid checkedAddU128
  by_cases h : x + y ≤ u128Max <;> simp [h]

@[simp] theorem stage_mintPool_eq_ok {pool : PoolState} {amount : Nat} {context : String} {r : PoolState × Batch Key.Val} :
    (mintPool pool amount context).stage sledView s b = .ok r ↔ pool.mint amount = .ok r.1 ∧ b = r.2 := by
  unfold mintPool
  cases h : pool.mint amount <;> simp [Prod.ext_iff]

@[simp] theorem ensures_mintPool {pool : PoolState} {amount : Nat} {context : String} {Q : PoolState → Prop} :
    (mintPool pool amount context).Ensures sledView s W Q ↔ ∀ pool', pool.mint amount = .ok pool' → Q pool' := by
  unfold mintPool
  cases h : pool.mint amount <;> simp

theorem PoolState.mint_balance {pool pool' : PoolState} {amount : Nat} (h : pool.mint amount = .ok pool') :
    pool'.balance = pool.balance + amount := by
  unfold PoolState.mint checkedAddU128 at h
  by_cases hmax : pool.balance + amount ≤ u128Max
  · by_cases hceiling : pool.balance + amount > pool.ceiling
    · simp [hmax, hceiling] at h
    · simp only [hmax, hceiling, if_true, if_false] at h
      cases h
      rfl
  · simp [hmax] at h

/-- The limits on a buy: some supply, not too much of it, and not too dear. -/
def BuyWithinLimits (amountIn deltaS maxPrice : Nat) : Prop :=
  deltaS ≠ 0 ∧ deltaS ≤ maxDeltaSPerTx ∧ amountIn * SCALE ≤ u256Max ∧ amountIn * SCALE / deltaS ≤ maxPrice

@[simp] theorem stage_validateBuyLimits_eq_ok {amountIn deltaS maxPrice : Nat} {r : Unit × Batch Key.Val} :
    (validateBuyLimits amountIn deltaS maxPrice).stage sledView s b = .ok r ↔
      BuyWithinLimits amountIn deltaS maxPrice ∧ b = r.2 := by
  simp [validateBuyLimits, BuyWithinLimits, Prod.ext_iff, and_assoc]

@[simp] theorem ensures_validateBuyLimits {amountIn deltaS maxPrice : Nat} {Q : Unit → Prop} :
    (validateBuyLimits amountIn deltaS maxPrice).Ensures sledView s W Q ↔
      (BuyWithinLimits amountIn deltaS maxPrice → Q ()) := by
  simp [validateBuyLimits, BuyWithinLimits]

/-! ## Buys -/

/-- The economic state after a buy, but for the tally of minted SOV. -/
def econAfterBuy (econ : BondingCurveEconomicState) (sC reserveBalance sovTreasury liquidityCredit : Nat)
    (pool : PoolState) : BondingCurveEconomicState :=
  let econ := BondingCurveEconomicState.satisfyPreBacked { econ with
    sC := sC
    reserveBalance := reserveBalance
    sovTreasuryCbeBalance := sovTreasury
    liquidityPool := pool
    liquidityPoolBalance := pool.balance
    sovrnTotalSupply := saturatingAddU128 econ.sovrnTotalSupply liquidityCredit } liquidityCredit
  if econ.reserveBalance ≥ gradThreshold then { econ with graduated := true } else econ

def tallied (econ : BondingCurveEconomicState) (sovTreasuryCredit : Nat) : BondingCurveEconomicState :=
  { econ with totalSovMinted := (checkedAddU128 econ.totalSovMinted sovTreasuryCredit).getD econ.totalSovMinted }

section

variable (econ : BondingCurveEconomicState) (sC reserveBalance sovTreasury liquidityCredit : Nat) (pool : PoolState)

@[simp] theorem econAfterBuy_sC :
    (econAfterBuy econ sC reserveBalance sovTreasury liquidityCredit pool).sC = sC := by
  unfold econAfterBuy
  dsimp only
  split <;> rfl

@[simp] theorem econAfterBuy_reserveBalance :
    (econAfterBuy econ sC reserveBalance sovTreasury liquidityCredit pool).reserveBalance = reserveBalance := by
  unfold econAfterBuy
  dsimp only
  split <;> rfl

@[simp] theorem econAfterBuy_liquidityPool :
    (econAfterBuy econ sC reserveBalance sovTreasury liquidityCredit pool).liquidityPool = pool := by
  unfold econAfterBuy
  dsimp only
  split <;> rfl

@[simp] theorem econAfterBuy_liquidityPoolBalance :
    (econAfterBuy econ sC reserveBalance sovTreasury liquidityCredit pool).liquidityPoolBalance = pool.balance := by
  unfold econAfterBuy
  dsimp only
  split <;> rfl

@[simp] theorem econAfterBuy_debtState :
    (econAfterBuy econ sC reserveBalance sovTreasury liquidityCredit pool).debtState = econ.debtState := by
  unfold econAfterBuy
  dsimp only
  split <;> rfl

@[simp] theorem econAfterBuy_preBackedQueue :
    (econAfterBuy econ sC reserveBalance sovTreasury liquidityCredit pool).preBackedQueue =
      (satisfyQueue liquidityCredit econ.outstandingPreBacked econ.preBackedQueue).1 := by
  unfold econAfterBuy
  dsimp only
  split <;> rfl

@[simp] theorem econAfterBuy_outstandingPreBacked :
    (econAfterBuy econ sC reserveBalance sovTreasury liquidityCredit pool).outstandingPreBacked =
      (satisfyQueue liquidityCredit econ.outstandingPreBacked econ.preBackedQueue).2 := by
  unfold econAfterBuy
  dsimp only
  split <;> rfl

end

/-- The batch after the two writes that a buy and a sale start with. -/
def orderState (b : Batch Key.Val) (sender : Address) (account : BondingCurveAccountState)
    (econ : BondingCurveEconomicState) : Batch Key.Val :=
  AList.insert (Key.cbeAccount sender) (some account) (AList.insert Key.cbeEconomicState (some econ) b)

def writeBuy (X : Externals) (E : BlockExecutor) (sender : Address) (account : BondingCurveAccountState)
    (amountIn deltaS sovTreasuryCredit : Nat) (econ : BondingCurveEconomicState) : TxProg Unit := do
  Sled.putCbeEconomicState econ
  Sled.putCbeAccountState sender account
  debitToken (canonicalSovTokenId X) sender amountIn
  creditToken X.deriveCbeTokenId sender deltaS
  if sovTreasuryCredit > 0 then
    creditToken (canonicalSovTokenId X) E.feeSinkAddress sovTreasuryCredit
    Sled.putCbeEconomicState (tallied econ sovTreasuryCredit)

theorem stage_writeBuy_eq_ok {sender : Address} {account : BondingCurveAccountState} {amountIn deltaS credit : Nat}
    {econ : BondingCurveEconomicState} {b' : Batch Key.Val}
    (h : (writeBuy X E sender account amountIn deltaS credit econ).stage sledView s b = .ok ((), b')) :
    let sov := canonicalSovTokenId X
    let bought := writeBalance (writeBalance (orderState b sender account econ) sov sender amountIn
      ((committed s).balance sov sender - amountIn)) X.deriveCbeTokenId sender deltaS
      ((committed s).balance X.deriveCbeTokenId sender + deltaS)
    amountIn ≤ (committed s).balance sov sender ∧
      (credit = 0 ∧ b' = bought ∨ b' = AList.insert Key.cbeEconomicState (some (tallied econ credit))
        (writeBalance bought sov E.feeSinkAddress credit ((committed s).balance sov E.feeSinkAddress + credit))) := by
  simp only [writeBuy, Prog.stage_bind_eq_ok, stage_putCbeEconomicState, stage_putCbeAccountState, stage_debitToken_eq_ok,
    stage_creditToken_eq_ok, Prog.stage_ite_eq_ok] at h
  obtain ⟨⟨⟩, _, hecon, ⟨⟩, _, haccount, ⟨⟩, _, ⟨hn, rfl⟩, ⟨⟩, _, ⟨-, rfl⟩, h⟩ := h
  cases hecon
  cases haccount
  refine ⟨hn, ?_⟩
  rcases h with ⟨-, ⟨⟩, _, ⟨-, rfl⟩, htally⟩ | ⟨hzero, hdone⟩
  · cases htally
    exact .inr rfl
  · cases hdone
    exact .inl ⟨Nat.eq_zero_of_not_pos hzero, rfl⟩

theorem stage_applyBuyCbe_eq_ok {maxPrice amountIn nextNonce : Nat} {sender : Address} {econ : BondingCurveEconomicState}
    {account : BondingCurveAccountState} {r : Unit × Batch Key.Val} :
    (applyBuyCbe X E maxPrice amountIn sender econ account nextNonce).stage sledView s b = .ok r ↔
      ∃ deltaS pool, amountIn ≤ maxGrossSovPerTx ∧ mintWithReserve (computeOnrampSplit amountIn).2.1 econ.sC = .ok deltaS ∧
        BuyWithinLimits amountIn deltaS maxPrice ∧ econ.sC + deltaS ≤ u128Max ∧
        econ.reserveBalance + (computeOnrampSplit amountIn).2.1 ≤ u128Max ∧
        econ.sovTreasuryCbeBalance + (computeOnrampSplit amountIn).1 ≤ u128Max ∧
        econ.liquidityPool.mint (computeOnrampSplit amountIn).2.2 = .ok pool ∧
        (writeBuy X E sender { account with nextNonce := nextNonce } amountIn deltaS (computeOnrampSplit amountIn).1
          (econAfterBuy econ (econ.sC + deltaS) (econ.reserveBalance + (computeOnrampSplit amountIn).2.1)
            (econ.sovTreasuryCbeBalance + (computeOnrampSplit amountIn).1) (computeOnrampSplit amountIn).2.2 pool)).stage
          sledView s b = .ok r := by
  cases hmint : mintWithReserve (computeOnrampSplit amountIn).2.1 econ.sC with
  | error e => simp [applyBuyCbe, hmint]
  | ok deltaS => simp [applyBuyCbe, writeBuy, tallied, econAfterBuy, hmint]

/-! ## Sales -/

def econAfterSale (econ : BondingCurveEconomicState) (amountCbe sovOut : Nat) : BondingCurveEconomicState :=
  { econ with sC := econ.sC - amountCbe, reserveBalance := econ.reserveBalance - sovOut }

def writeSale (X : Externals) (sender : Address) (account : BondingCurveAccountState) (amountCbe sovOut : Nat)
    (econ : BondingCurveEconomicState) : TxProg Unit := do
  Sled.putCbeEconomicState econ
  Sled.putCbeAccountState sender account
  debitToken X.deriveCbeTokenId sender amountCbe
  creditToken (canonicalSovTokenId X) sender sovOut

theorem stage_writeSale_eq_ok {sender : Address} {account : BondingCurveAccountState} {amountCbe sovOut : Nat}
    {econ : BondingCurveEconomicState} {b' : Batch Key.Val}
    (h : (writeSale X sender account amountCbe sovOut econ).stage sledView s b = .ok ((), b')) :
    b' = writeBalance (writeBalance (orderState b sender account econ) X.deriveCbeTokenId sender amountCbe
      ((committed s).balance X.deriveCbeTokenId sender - amountCbe)) (canonicalSovTokenId X) sender sovOut
      ((committed s).balance (canonicalSovTokenId X) sender + sovOut) := by
  simp only [writeSale, Prog.stage_bind_eq_ok, stage_putCbeEconomicState, stage_putCbeAccountState,
    stage_debitToken_eq_ok, stage_creditToken_eq_ok] at h
  obtain ⟨⟨⟩, _, hecon, ⟨⟩, _, haccount, ⟨⟩, _, ⟨-, rfl⟩, -, rfl⟩ := h
  cases hecon
  cases haccount
  rfl

theorem stage_applySellCbe_eq_ok {minPayout amountCbe nextNonce : Nat} {sender : Address}
    {econ : BondingCurveEconomicState} {account : BondingCurveAccountState} {r : Unit × Batch Key.Val} :
    (applySellCbe X minPayout amountCbe sender econ account nextNonce).stage sledView s b = .ok r ↔
      ∃ sovOut, payoutForBurn amountCbe econ.sC = .ok sovOut ∧ sovOut ≠ 0 ∧ minPayout ≤ sovOut ∧
        sovOut ≤ econ.reserveBalance ∧ amountCbe ≤ econ.sC ∧
        (writeSale X sender { account with nextNonce := nextNonce } amountCbe sovOut
          (econAfterSale econ amountCbe sovOut)).stage sledView s b = .ok r := by
  cases hpayout : payoutForBurn amountCbe econ.sC with
  | error e => simp [applySellCbe, hpayout]
  | ok sovOut => simpa [applySellCbe, writeSale, econAfterSale, hpayout] using fun _ _ h _ _ _ _ => h

/-! ## Payroll -/

def econAfterPayroll (econ : BondingCurveEconomicState) (pool : PoolState)
    (sovTreasury reserveBalance outstanding minted : Nat) (entry : PreBackedEntry) : BondingCurveEconomicState :=
  { econ with
    compensationPool := pool
    sovTreasuryCbeBalance := sovTreasury
    reserveBalance := reserveBalance
    preBackedQueue := econ.preBackedQueue ++ [entry]
    outstandingPreBacked := outstanding
    debtState := computeDebtState outstanding
    sovrnTotalSupply := saturatingAddU128 econ.sovrnTotalSupply minted }

def payrollEntry (blockHeight gross : Nat) (data : ProcessPayrollData) : PreBackedEntry :=
  ⟨blockHeight, gross, data.collaboratorAddress, data.deliverableHash, false⟩

def writePayroll (X : Externals) (E : BlockExecutor) (data : ProcessPayrollData) (treasuryCredit : Nat)
    (econ : BondingCurveEconomicState) : TxProg Unit := do
  Sled.putCbeEconomicState econ
  creditToken X.deriveCbeTokenId data.collaboratorAddress data.amountCbe
  creditToken X.deriveCbeTokenId E.feeSinkAddress treasuryCredit

theorem stage_applyPayrollMint_eq_ok {tx : Transaction} {blockHeight : Nat} {r : Unit × Batch Key.Val} :
    (applyPayrollMint X E tx blockHeight).stage sledView s b = .ok r ↔
      ∃ data gross treasuryCredit reserveCredit pool price, tx.processPayrollData = some data ∧ data.amountCbe ≠ 0 ∧
        payrollSplit data.amountCbe = some (gross, treasuryCredit, reserveCredit) ∧
        (committed s).econ.outstandingPreBacked + gross ≤ u128Max ∧
        (committed s).econ.outstandingPreBacked + gross ≤ debtCeiling ∧
        (committed s).econ.compensationPool.mint data.amountCbe = .ok pool ∧
        (committed s).econ.sovTreasuryCbeBalance + treasuryCredit ≤ u128Max ∧
        (committed s).econ.reserveBalance + reserveCredit ≤ u128Max ∧ priceAtSupply (committed s).econ.sC = .ok price ∧
        (writePayroll X E data treasuryCredit
          (econAfterPayroll (committed s).econ pool ((committed s).econ.sovTreasuryCbeBalance + treasuryCredit)
            ((committed s).econ.reserveBalance + reserveCredit) ((committed s).econ.outstandingPreBacked + gross)
            (sovrnMint reserveCredit price) (payrollEntry blockHeight gross data))).stage sledView s b = .ok r := by
  cases hprice : priceAtSupply (committed s).econ.sC with
  | error e => simp [applyPayrollMint, hprice]
  | ok price => simp [applyPayrollMint, writePayroll, econAfterPayroll, payrollEntry, hprice]

/-! ## Orders -/

/-- What the executor checks of a curve order before it buys or sells. -/
structure OrderAccepted (s : AList Key.Val) (signer : Address) (order : CurveOrder) : Prop where
  signed : signer = order.sender
  amount : order.amount ≠ 0
  notGraduated : (committed s).econ.graduated = false
  nonce : order.nonce = ((committed s).account order.sender).nextNonce
  supply : order.expectedSC = (committed s).econ.sC
  nextNonce : order.nonce + 1 ≤ nonce48Max

theorem stage_applyCanonicalBondingCurveEnvelope {payload : List UInt8} {signer : Address}
    {r : CanonicalBondingCurveTx × Batch Key.Val}
    (h : (applyCanonicalBondingCurveEnvelope X E payload signer).stage sledView s b = .ok r) :
    (∃ order, decodeCanonicalBondingCurveTx payload = .ok (.buy order) ∧ r.1 = .buy order ∧
        OrderAccepted s signer order ∧ order.amount ≤ (committed s).balance (canonicalSovTokenId X) order.sender ∧
        (applyBuyCbe X E order.bound order.amount order.sender (committed s).econ
          ((committed s).account order.sender) (order.nonce + 1)).stage sledView s b = .ok ((), r.2)) ∨
      ∃ order, decodeCanonicalBondingCurveTx payload = .ok (.sell order) ∧ r.1 = .sell order ∧
        OrderAccepted s signer order ∧ (committed s).econ.sellEnabled = true ∧
        (applySellCbe X order.bound order.amount order.sender (committed s).econ
          ((committed s).account order.sender) (order.nonce + 1)).stage sledView s b = .ok ((), r.2) := by
  cases hdecode : decodeCanonicalBondingCurveTx payload with
  | error e => simp [applyCanonicalBondingCurveEnvelope, hdecode] at h
  | ok curveTx =>
    cases curveTx with
    | buy order =>
      simp [applyCanonicalBondingCurveEnvelope, applyCanonicalBondingCurveTx, hdecode,
        CanonicalBondingCurveTx.order, CanonicalBondingCurveTx.isBuy] at h
      obtain ⟨hsigned, hamount, hgraduated, hnonce, hbalance, hsupply, hnext, ⟨⟩, b', happly, rfl⟩ := h
      exact .inl ⟨order, rfl, rfl, ⟨hsigned, hamount, hgraduated, hnonce, hsupply, hnext⟩, hbalance, happly⟩
    | sell order =>
      simp [applyCanonicalBondingCurveEnvelope, applyCanonicalBondingCurveTx, hdecode,
        CanonicalBondingCurveTx.order, CanonicalBondingCurveTx.isBuy] at h
      obtain ⟨hsigned, hamount, hgraduated, henabled, hnonce, -, hsupply, hnext, ⟨⟩, b', happly, rfl⟩ := h
      exact .inr ⟨order, rfl, rfl, ⟨hsigned, hamount, hgraduated, hnonce, hsupply, hnext⟩, henabled, happly⟩

theorem stage_applyBondingCurveBuy {tx : Transaction} {r : Unit × Batch Key.Val}
    (h : (applyBondingCurveBuy X E tx).stage sledView s b = .ok r) :
    ∃ order, decodeCanonicalBondingCurveTx tx.memo = .ok (.buy order) ∧
      OrderAccepted s tx.signature.publicKey.keyId order ∧
      (applyBuyCbe X E order.bound order.amount order.sender (committed s).econ ((committed s).account order.sender)
        (order.nonce + 1)).stage sledView s b = .ok r := by
  simp only [applyBondingCurveBuy, extractBondingCurveEnvelope] at h
  simp at h
  obtain ⟨-, curveTx, b', henvelope, hbuy, rfl⟩ := h
  rcases stage_applyCanonicalBondingCurveEnvelope henvelope with
    ⟨order, hdecode, -, haccepted, -, happly⟩ | ⟨order, -, rfl, -⟩
  · exact ⟨order, hdecode, haccepted, happly⟩
  · cases hbuy

theorem stage_applyBondingCurveSell {tx : Transaction} {r : Unit × Batch Key.Val}
    (h : (applyBondingCurveSell X E tx).stage sledView s b = .ok r) :
    ∃ order, decodeCanonicalBondingCurveTx tx.memo = .ok (.sell order) ∧
      OrderAccepted s tx.signature.publicKey.keyId order ∧
      (applySellCbe X order.bound order.amount order.sender (committed s).econ ((committed s).account order.sender)
        (order.nonce + 1)).stage sledView s b = .ok r := by
  simp only [applyBondingCurveSell, extractBondingCurveEnvelope] at h
  simp at h
  obtain ⟨-, curveTx, b', henvelope, hbuy, rfl⟩ := h
  rcases stage_applyCanonicalBondingCurveEnvelope henvelope with
    ⟨order, -, rfl, -⟩ | ⟨order, hdecode, -, haccepted, -, happly⟩
  · cases hbuy
  · exact ⟨order, hdecode, haccepted, happly⟩

end SovereignNetwork.Execution
