import SovereignNetwork.Execution.CurveSteps
import SovereignNetwork.Execution.Lemmas.Bands

/-!
# Solvency of the curve

Whether the reserve can buy back the whole supply.
-/

namespace SovereignNetwork.Execution

open Lib Mutator

variable {X : Externals} {E : BlockExecutor}

/-- The reserve pays for a burn of the whole supply, but for two atoms a buy. -/
structure Solvent (econ : BondingCurveEconomicState) (buys : Nat) : Prop where
  supply : econ.sC ≤ maxSupply
  covered : ∃ payout, payoutForBurn econ.sC econ.sC = .ok payout ∧ payout ≤ econ.reserveBalance + 2 * buys

theorem solvent_iff {econ : BondingCurveEconomicState} {buys : Nat} :
    Solvent econ buys ↔ econ.sC ≤ maxSupply ∧ spanCost 0 econ.sC ≤ econ.reserveBalance + 2 * buys := by
  constructor
  · rintro ⟨hsupply, payout, hpayout, hcovered⟩
    rw [payoutForBurn_eq le_rfl hsupply, Nat.sub_self] at hpayout
    cases hpayout
    exact ⟨hsupply, hcovered⟩
  · rintro ⟨hsupply, hcovered⟩
    refine ⟨hsupply, _, payoutForBurn_eq le_rfl hsupply, ?_⟩
    rwa [Nat.sub_self]

def CurveEvent.buys : CurveEvent → Nat
  | .buy _ => 1
  | _ => 0

theorem EconStep.solvent {econ econ' : BondingCurveEconomicState} {event : CurveEvent} {buys : Nat}
    (h : EconStep econ event econ') (hecon : Solvent econ buys) : Solvent econ' (buys + event.buys) := by
  obtain ⟨hsupply, hcovered⟩ := solvent_iff.mp hecon
  refine solvent_iff.mpr ?_
  cases h with
  | @buy amountIn treasuryCredit reserveCredit liquidityCredit deltaS pool split gross mint deposit =>
    obtain ⟨hmax, hcost⟩ := mintWithReserve_spec mint
    have hcut : spanCost 0 (econ.sC + deltaS) ≤ spanCost 0 econ.sC + spanCost econ.sC (econ.sC + deltaS) + 2 :=
      curveBands.span_le_add (Nat.zero_le _) (Nat.le_add_right _ _)
    simp only [tallied, econAfterBuy_sC, econAfterBuy_reserveBalance, CurveEvent.buys]
    exact ⟨hmax, by omega⟩
  | @sale amountCbe sovOut payout solvent supply =>
    rw [payoutForBurn_eq supply hsupply] at payout
    cases payout
    have hcut : spanCost 0 (econ.sC - amountCbe) + spanCost (econ.sC - amountCbe) econ.sC ≤ spanCost 0 econ.sC :=
      curveBands.span_add_le (Nat.zero_le _) (Nat.sub_le _ _)
    simp only [econAfterSale, CurveEvent.buys]
    exact ⟨by omega, by omega⟩
  | payroll amount split ceiling =>
    simp only [econAfterPayroll, CurveEvent.buys]
    exact ⟨hsupply, by omega⟩

def Chain.buys (c : Chain) : Nat := c.txs.countP fun tx => tx.transactionType = .bondingCurveBuy

theorem buys_of_curveEvent {tx : Transaction} {event : CurveEvent} (h : curveEvent tx = some event) :
    [tx].countP (fun tx => tx.transactionType = .bondingCurveBuy) = event.buys := by
  unfold curveEvent at h
  split at h
  · next htype =>
    split at h <;> cases h
    simp [htype, CurveEvent.buys]
  · next htype =>
    split at h <;> cases h
    simp [htype, CurveEvent.buys]
  · next htype =>
    obtain ⟨data, -, rfl⟩ := Option.map_eq_some_iff.mp h
    simp [htype, CurveEvent.buys]
  · cases h

/-- Buys, sales and payrolls from the genesis state, each in a block of its own, leave the reserve short of the price of
the whole supply by at most two atoms a buy. -/
theorem reserve_covers_supply_up_to_rounding {st : SledStore} {sellEnabled : Bool} {blocks : List Block}
    (hgenesis : st.state.econ = { genesisEcon with sellEnabled := sellEnabled })
    (hrun : LoneTxRun X E (fun _ tx => tx.transactionType ∈ curveTypes) ⟨st, []⟩ blocks) :
    let c := run (Chain.offer X E) ⟨st, []⟩ blocks
    Solvent c.store.state.econ c.buys := by
  refine hrun.invariant (I := fun c => Solvent c.store.state.econ c.buys) ?_ ?_
  · intro c block tx st' halone htype hsolvent
    obtain ⟨event, hevent, hstep⟩ := halone.econStep htype
    have hbuys : Chain.buys ⟨st', c.blocks ++ [block]⟩ = c.buys + event.buys := by
      rw [Chain.buys, halone.txs, List.countP_append, buys_of_curveEvent hevent, Chain.buys]
    rw [hbuys]
    exact hstep.solvent hsolvent
  · show Solvent st.state.econ _
    rw [hgenesis]
    exact ⟨Nat.zero_le _, 0, rfl, Nat.zero_le _⟩

/-- A buy of a thousand atoms and a payroll. -/
theorem reserve_covers_supply_after_buy :
    holderStore.state.econ = { genesisEcon with sellEnabled := false } ∧
      LoneTxRun silentExternals defaultExecutor (fun _ tx => tx.transactionType ∈ curveTypes) ⟨holderStore, []⟩
        [blockAt 2 [buyTx 1000], blockAt 3 [payrollTx 12]] ∧
      let c := run (Chain.offer silentExternals defaultExecutor) ⟨holderStore, []⟩
        [blockAt 2 [buyTx 1000], blockAt 3 [payrollTx 12]]
      c.buys = 1 ∧ Solvent c.store.state.econ c.buys := by
  have hgenesis : holderStore.state.econ = { genesisEcon with sellEnabled := false } := by decide +kernel
  have hrun : LoneTxRun silentExternals defaultExecutor (fun _ tx => tx.transactionType ∈ curveTypes) ⟨holderStore, []⟩
      [blockAt 2 [buyTx 1000], blockAt 3 [payrollTx 12]] :=
    ⟨fun _ => ⟨by decide, _, rfl, by decide⟩, fun _ => ⟨by decide, _, rfl, by decide⟩, trivial⟩
  exact ⟨hgenesis, hrun, by decide +kernel, reserve_covers_supply_up_to_rounding hgenesis hrun⟩

end SovereignNetwork.Execution
