import SovereignNetwork.Execution.CurveSteps

/-!
# The backing of SOV

SOV in the ledger, in the curve's reserve and in its liquidity pool, taken together.
-/

namespace SovereignNetwork.Execution

open Lib Mutator

variable {X : Externals} {E : BlockExecutor}

def backing (X : Externals) (st : SledStore) : Nat :=
  tokenTotal st.trees (canonicalSovTokenId X) + st.state.econ.reserveBalance + st.state.econ.liquidityPoolBalance

theorem wrapU128_of_lt {x : Nat} (h : x < 2 ^ 128) : wrapU128 x = x := Nat.mod_eq_of_lt h

theorem wrappingSubU128_of_le {x y : Nat} (h : y ≤ x) (hx : x < 2 ^ 128) : wrappingSubU128 x y = x - y := by
  rw [wrappingSubU128, wrapU128]
  omega

theorem computeOnrampSplit_sum {amountIn treasuryCredit reserveCredit liquidityCredit : Nat}
    (h : computeOnrampSplit amountIn = (treasuryCredit, reserveCredit, liquidityCredit))
    (hgross : amountIn ≤ maxGrossSovPerTx) : treasuryCredit + reserveCredit + liquidityCredit = amountIn := by
  simp only [maxGrossSovPerTx] at hgross
  simp only [computeOnrampSplit, sovTreasurySharePct, reserveSharePct, Prod.mk.injEq] at h
  rw [wrapU128_of_lt (by omega), wrapU128_of_lt (by omega), wrappingSubU128_of_le (x := amountIn) (by omega) (by omega),
    wrappingSubU128_of_le (by omega) (by omega)] at h
  omega

/-! ## What the writes do to the SOV in the ledger -/

section

variable {s : AList Key.Val} {b : Batch Key.Val} {sender : Address} {account : BondingCurveAccountState}
  {econ : BondingCurveEconomicState}

theorem balances_of_orderState (s : AList Key.Val) (t : TokenId) (sender : Address) (account : BondingCurveAccountState)
    (econ : BondingCurveEconomicState) :
    totalAfter (balanceWeight t) s (orderState ∅ sender account econ) = tokenTotal s t ∧
      ∀ a, Key.tokenBalance t a ∉ orderState ∅ sender account econ := by
  unfold orderState
  refine ⟨?_, fun a => ?_⟩
  · rw [total_insert_of_ne (by simp), total_insert_of_ne (by simp), totalAfter_empty, tokenTotal]
  · rw [AList.mem_insert, AList.mem_insert, not_or, not_or]
    exact ⟨by simp, by simp, AList.notMem_empty _⟩

theorem total_writeBuy {amountIn deltaS credit : Nat} (hids : canonicalSovTokenId X ≠ X.deriveCbeTokenId)
    (hsender : sender ≠ E.feeSinkAddress)
    (h : (writeBuy X E sender account amountIn deltaS credit econ).stage sledView s ∅ = .ok ((), b)) :
    totalAfter (balanceWeight (canonicalSovTokenId X)) s b + amountIn = tokenTotal s (canonicalSovTokenId X) + credit := by
  obtain ⟨htotal, hfresh⟩ := balances_of_orderState s (canonicalSovTokenId X) sender account econ
  obtain ⟨hn, hwritten⟩ := stage_writeBuy_eq_ok h
  have hdebit := total_debit (fun _ => hfresh sender) hn
  rcases hwritten with ⟨rfl, rfl⟩ | rfl
  · rw [total_writeBalance_of_ne hids]
    omega
  · rw [total_insert_of_ne (by simp), total_credit, total_writeBalance_of_ne hids]
    · omega
    · intro _
      refine notMem_writeBalance (fun _ heq => hids (Key.tokenBalance.inj heq).1) (notMem_writeBalance (fun _ heq => ?_) ?_ _) _
      · exact hsender (Key.tokenBalance.inj heq).2.symm
      · exact hfresh _

theorem total_writeSale {amountCbe sovOut : Nat} (hids : canonicalSovTokenId X ≠ X.deriveCbeTokenId)
    (h : (writeSale X sender account amountCbe sovOut econ).stage sledView s ∅ = .ok ((), b)) :
    totalAfter (balanceWeight (canonicalSovTokenId X)) s b = tokenTotal s (canonicalSovTokenId X) + sovOut := by
  obtain ⟨htotal, hfresh⟩ := balances_of_orderState s (canonicalSovTokenId X) sender account econ
  rw [stage_writeSale_eq_ok h, total_credit, total_writeBalance_of_ne hids, htotal]
  exact fun _ => notMem_writeBalance (fun _ heq => hids (Key.tokenBalance.inj heq).1) (hfresh _) _

end

/-! ## Steps -/

def LiquidityRecorded (econ : BondingCurveEconomicState) : Prop := econ.liquidityPoolBalance = econ.liquidityPool.balance

theorem EconStep.liquidityRecorded {econ econ' : BondingCurveEconomicState} {event : CurveEvent}
    (h : EconStep econ event econ') (hecon : LiquidityRecorded econ) : LiquidityRecorded econ' := by
  cases h with
  | buy => simp [LiquidityRecorded, tallied]
  | sale => exact hecon
  | payroll => exact hecon

theorem liquidityRecorded_of_run (blocks : List Block) :
    LiquidityRecorded (run (Chain.offer X E) ⟨.empty, []⟩ blocks).store.state.econ := by
  refine Chain.invariant_of_accepts (I := fun c => LiquidityRecorded c.store.state.econ) blocks ?_ rfl
  exact fun c block st haccept hc => haccept.econ_invariant rfl EconStep.liquidityRecorded hc

theorem EconStep.buy_backing {econ econ' : BondingCurveEconomicState} {amountIn : Nat}
    (h : EconStep econ (.buy amountIn) econ') (hecon : LiquidityRecorded econ) :
    econ'.reserveBalance + econ'.liquidityPoolBalance + (computeOnrampSplit amountIn).1 =
      econ.reserveBalance + econ.liquidityPoolBalance + amountIn := by
  cases h with
  | buy split gross mint deposit =>
    have hsum := computeOnrampSplit_sum split gross
    have hpool := PoolState.mint_balance deposit
    rw [LiquidityRecorded] at hecon
    simp only [tallied, econAfterBuy_reserveBalance, econAfterBuy_liquidityPoolBalance, split]
    omega

/-! ## Buys and sales -/

theorem AppliedAlone.backing_of_buy {st st' : SledStore} {block : Block} {tx : Transaction}
    (h : AppliedAlone X E st block tx st') (htype : tx.transactionType = .bondingCurveBuy)
    (hsender : tx.signature.publicKey.keyId ≠ E.feeSinkAddress) (hids : canonicalSovTokenId X ≠ X.deriveCbeTokenId)
    (hliquidity : LiquidityRecorded st.state.econ) : backing X st' = backing X st := by
  obtain ⟨o, b, hstaged, hstate⟩ := h.staged (by rw [htype]; decide)
  obtain ⟨order, deltaS, econ, -, haccepted, hstep, hwrites⟩ := hstaged.buy htype
  have hecon : st'.state.econ = tallied econ (computeOnrampSplit order.amount).1 :=
    (ChainState.econ_congr (hstate .cbeEconomicState (by simp [Key.IsState, Key.tree]))).trans
      (econ_staged (econ_writeBuy hwrites))
  rw [haccepted.signed] at hsender
  have htotal := total_writeBuy hids hsender hwrites
  have hmoved := hstep.buy_backing hliquidity
  rw [← tokenTotal_of_state hstate] at htotal
  rw [← hecon] at hmoved
  simp only [backing, SledStore.state] at hmoved ⊢
  omega

theorem AppliedAlone.backing_of_sale {st st' : SledStore} {block : Block} {tx : Transaction}
    (h : AppliedAlone X E st block tx st') (htype : tx.transactionType = .bondingCurveSell)
    (hids : canonicalSovTokenId X ≠ X.deriveCbeTokenId) : backing X st' = backing X st := by
  obtain ⟨o, b, hstaged, hstate⟩ := h.staged (by rw [htype]; decide)
  obtain ⟨order, sovOut, -, -, -, hsolvent, hwrites⟩ := hstaged.sale htype
  have hecon : st'.state.econ = econAfterSale st.state.econ order.amount sovOut :=
    (ChainState.econ_congr (hstate .cbeEconomicState (by simp [Key.IsState, Key.tree]))).trans
      (econ_staged (econ_writeSale hwrites))
  have htotal := total_writeSale hids hwrites
  rw [← tokenTotal_of_state hstate] at htotal
  rw [backing, backing, hecon, htotal]
  simp only [econAfterSale, SledStore.state] at hsolvent ⊢
  omega

/-- In every chain, a lone buy or sale by a sender other than the treasury leaves the backing of SOV as it was. -/
theorem backing_unchanged_by_lone_order {blocks : List Block} {st' : SledStore} {block : Block} {tx : Transaction}
    (h : AppliedAlone X E (run (Chain.offer X E) ⟨.empty, []⟩ blocks).store block tx st')
    (htype : tx.transactionType ∈ [.bondingCurveBuy, .bondingCurveSell])
    (hsender : tx.signature.publicKey.keyId ≠ E.feeSinkAddress) (hids : canonicalSovTokenId X ≠ X.deriveCbeTokenId) :
    backing X st' = backing X (run (Chain.offer X E) ⟨.empty, []⟩ blocks).store := by
  rcases List.mem_cons.mp htype with htype | htype
  · exact h.backing_of_buy htype hsender hids (liquidityRecorded_of_run blocks)
  · exact h.backing_of_sale (List.mem_singleton.mp htype) hids

theorem backing_unchanged_by_lone_buy :
    ∃ st', AppliedAlone silentExternals defaultExecutor
        (run (Chain.offer silentExternals defaultExecutor) ⟨.empty, []⟩ holderBlocks).store (blockAt 2 [buyTx 1000])
        (buyTx 1000) st' ∧
      backing silentExternals st' =
        backing silentExternals (run (Chain.offer silentExternals defaultExecutor) ⟨.empty, []⟩ holderBlocks).store := by
  have haccept : (applyBlock silentExternals defaultExecutor
      (run (Chain.offer silentExternals defaultExecutor) ⟨.empty, []⟩ holderBlocks).store
      (blockAt 2 [buyTx 1000])).toOption.map (fun r => r.1.txCount) = some 1 := by decide +kernel
  obtain ⟨⟨o, st'⟩, hok, -⟩ := exists_ok_of_map_eq_some haccept
  have halone : AppliedAlone silentExternals defaultExecutor
      (run (Chain.offer silentExternals defaultExecutor) ⟨.empty, []⟩ holderBlocks).store (blockAt 2 [buyTx 1000])
      (buyTx 1000) st' := ⟨rfl, by decide, o, hok⟩
  exact ⟨st', halone, backing_unchanged_by_lone_order halone (by decide) (by decide) (by decide)⟩

/-! ## What a payroll mints -/

/-- A payroll splits its gross amount into the pay and the shares of the treasury and the reserve, and the unit that
rounding may leave over goes to the reserve. -/
theorem payroll_split_is_exact (amountCbe outstanding : Nat) (hamount : 0 < amountCbe)
    (hceiling : outstanding + amountCbe * payrollGrossNum / payrollGrossDen ≤ debtCeiling) :
    let gross := amountCbe * payrollGrossNum / payrollGrossDen
    let treasuryCredit := gross * payrollTreasuryPct / 100
    let baseReserve := gross * payrollReservePct / 100
    let roundingDust := gross - treasuryCredit - baseReserve - amountCbe
    treasuryCredit + baseReserve + amountCbe ≤ gross ∧ roundingDust ≤ 1 ∧
      payrollSplit amountCbe = some (gross, treasuryCredit, baseReserve + roundingDust) ∧
      gross = amountCbe + treasuryCredit + (baseReserve + roundingDust) := by
  intro gross treasuryCredit baseReserve roundingDust
  have hgross : gross ≤ debtCeiling := le_trans (Nat.le_add_left _ _) hceiling
  -- The gross amount is more than twice the pay but for rounding, which leaves room for the two shares.
  have hroom : treasuryCredit + baseReserve + amountCbe ≤ gross ∧ roundingDust ≤ 1 := by
    simp only [roundingDust, gross, treasuryCredit, baseReserve, payrollGrossNum, payrollGrossDen, payrollTreasuryPct,
      payrollReservePct]
    omega
  refine ⟨hroom.1, hroom.2, ?_, by omega⟩
  have hproduct : checkedMulU128 amountCbe payrollGrossNum = some (amountCbe * payrollGrossNum) := by
    simp only [gross, debtCeiling, payrollGrossNum, payrollGrossDen, SCALE] at hgross ⊢
    exact checkedMulU128_eq_some.mpr ⟨by simp only [u128Max]; omega, rfl⟩
  have hfits : gross * 100 < 2 ^ 128 := by
    simp only [debtCeiling, SCALE] at hgross
    omega
  have htreasury : wrapU128 (gross * payrollTreasuryPct) = gross * payrollTreasuryPct :=
    wrapU128_of_lt (by simp only [payrollTreasuryPct]; omega)
  have hreserve : wrapU128 (gross * payrollReservePct) = gross * payrollReservePct :=
    wrapU128_of_lt (by simp only [payrollReservePct]; omega)
  have hdust : wrappingSubU128 (wrappingSubU128 (wrappingSubU128 gross treasuryCredit) baseReserve) amountCbe =
      roundingDust := by
    rw [wrappingSubU128_of_le (x := gross) (by omega) (by omega),
      wrappingSubU128_of_le (y := baseReserve) (by omega) (by omega), wrappingSubU128_of_le (by omega) (by omega)]
  simp only [payrollSplit, hproduct]
  rw [htreasury, hreserve, hdust, wrapU128_of_lt (by omega)]

/-- A pay of one unit mints two, and the second is rounding dust. -/
theorem payroll_of_one_is_exact : payrollSplit 1 = some (2, 0, 1) :=
  (payroll_split_is_exact 1 0 (by decide) (by decide)).2.2.1

/-- A payroll adds to the reserve what nobody has paid in. -/
theorem payroll_mints_reserve :
    ∃ st', AppliedAlone silentExternals defaultExecutor
        (run (Chain.offer silentExternals defaultExecutor) ⟨.empty, []⟩ holderBlocks).store (blockAt 2 [payrollTx 12])
        (payrollTx 12) st' ∧
      (payrollTx 12).signature.publicKey.keyId ≠ defaultExecutor.feeSinkAddress ∧
      backing silentExternals (run (Chain.offer silentExternals defaultExecutor) ⟨.empty, []⟩ holderBlocks).store =
        10 ^ 6 ∧
      backing silentExternals st' = 10 ^ 6 + 8 := by
  have haccept : (applyBlock silentExternals defaultExecutor
      (run (Chain.offer silentExternals defaultExecutor) ⟨.empty, []⟩ holderBlocks).store
      (blockAt 2 [payrollTx 12])).toOption.map (fun r => backing silentExternals r.2) = some (10 ^ 6 + 8) := by
    decide +kernel
  obtain ⟨⟨o, st'⟩, hok, hbacking⟩ := exists_ok_of_map_eq_some haccept
  exact ⟨st', ⟨rfl, by decide, o, hok⟩, by decide, by decide +kernel, hbacking⟩

end SovereignNetwork.Execution
