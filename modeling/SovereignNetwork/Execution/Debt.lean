import SovereignNetwork.Execution.CurveSteps

/-!
# The debt of pre-backed payrolls

A payroll appends an entry to the queue of debts, and the liquidity share of a buy pays entries off, the oldest first.
-/

namespace SovereignNetwork.Execution

open Lib Mutator

variable {X : Externals} {E : BlockExecutor}

/-- The amounts of the entries that are still to be paid off, the oldest first. -/
def unpaidAmounts (queue : List PreBackedEntry) : List Nat :=
  (queue.filter fun entry => !entry.satisfied).map (·.amountCbe)

/-- No entry is paid off before an older one. -/
def SatisfiedFirst (queue : List PreBackedEntry) : Prop :=
  queue.Pairwise fun older newer => newer.satisfied = true → older.satisfied = true

/-- The part of the debts that a credit pays off: the longest run of whole debts from the front. -/
def payoff : (credit : Nat) → List Nat → Nat
  | _, [] => 0
  | credit, debt :: debts => if debt ≤ credit then debt + payoff (credit - debt) debts else 0

structure DebtAccounted (econ : BondingCurveEconomicState) : Prop where
  outstanding : econ.outstandingPreBacked = (unpaidAmounts econ.preBackedQueue).sum
  ceiling : econ.outstandingPreBacked ≤ debtCeiling
  fifo : SatisfiedFirst econ.preBackedQueue
  liquidity : econ.liquidityPoolBalance = econ.liquidityPool.balance
  state : econ.debtState = computeDebtState econ.outstandingPreBacked

/-! ## Paying off the queue -/

section

variable {remaining outstanding : Nat} {queue : List PreBackedEntry}

theorem payoff_zero (debts : List Nat) : payoff 0 debts = 0 := by
  induction debts with
  | nil => rfl
  | cons debt debts ih =>
    unfold payoff
    split
    · next h =>
      obtain rfl : debt = 0 := Nat.le_zero.mp h
      rw [Nat.zero_sub, ih]
    · rfl

@[simp] theorem unpaidAmounts_cons (entry : PreBackedEntry) (queue : List PreBackedEntry) :
    unpaidAmounts (entry :: queue) =
      if entry.satisfied then unpaidAmounts queue else entry.amountCbe :: unpaidAmounts queue := by
  cases h : entry.satisfied <;> simp [unpaidAmounts, h]

theorem satisfyQueue_zero : satisfyQueue 0 outstanding queue = (queue, outstanding) := by
  induction queue with
  | nil => rfl
  | cons entry queue ih => simp [satisfyQueue, ih]

theorem satisfyQueue_cons (remaining outstanding : Nat) (entry : PreBackedEntry) (queue : List PreBackedEntry) :
    satisfyQueue remaining outstanding (entry :: queue) =
      if entry.satisfied then
        (entry :: (satisfyQueue remaining outstanding queue).1, (satisfyQueue remaining outstanding queue).2)
      else if remaining ≠ 0 ∧ entry.amountCbe ≤ remaining then
        ({ entry with satisfied := true } ::
            (satisfyQueue (remaining - entry.amountCbe) (outstanding - entry.amountCbe) queue).1,
          (satisfyQueue (remaining - entry.amountCbe) (outstanding - entry.amountCbe) queue).2)
      else (entry :: queue, outstanding) := by
  rw [satisfyQueue]
  by_cases hzero : remaining = 0
  · cases hpaid : entry.satisfied <;> simp [hzero, satisfyQueue_zero]
  · cases hpaid : entry.satisfied <;> by_cases hcover : entry.amountCbe ≤ remaining <;> simp [hzero, hcover]

theorem satisfyQueue_outstanding :
    (satisfyQueue remaining outstanding queue).2 = outstanding - payoff remaining (unpaidAmounts queue) := by
  induction queue generalizing remaining outstanding with
  | nil => rfl
  | cons entry queue ih =>
    rw [satisfyQueue_cons, unpaidAmounts_cons]
    split_ifs with hpaid hcover
    · exact ih
    · rw [payoff, if_pos hcover.2]
      exact ih.trans (Nat.sub_sub _ _ _)
    · rcases not_and_or.mp hcover with hzero | hshort
      · rw [not_not.mp hzero, payoff_zero, Nat.sub_zero]
      · rw [payoff, if_neg hshort, Nat.sub_zero]

theorem satisfyQueue_unpaid (remaining outstanding : Nat) (queue : List PreBackedEntry) :
    (unpaidAmounts (satisfyQueue remaining outstanding queue).1).sum + payoff remaining (unpaidAmounts queue) =
      (unpaidAmounts queue).sum := by
  induction queue generalizing remaining outstanding with
  | nil => rfl
  | cons entry queue ih =>
    rw [satisfyQueue_cons, unpaidAmounts_cons]
    split_ifs with hpaid hcover
    · rw [unpaidAmounts_cons, if_pos hpaid]
      exact ih _ _
    · rw [unpaidAmounts_cons, if_pos rfl, payoff, if_pos hcover.2, List.sum_cons, Nat.add_left_comm, ih]
    · rw [unpaidAmounts_cons, if_neg hpaid]
      rcases not_and_or.mp hcover with hzero | hshort
      · rw [not_not.mp hzero, payoff_zero, Nat.add_zero]
      · rw [payoff, if_neg hshort, Nat.add_zero]

theorem SatisfiedFirst.satisfyQueue (h : SatisfiedFirst queue) :
    SatisfiedFirst (satisfyQueue remaining outstanding queue).1 := by
  induction queue generalizing remaining outstanding with
  | nil => exact h
  | cons entry queue ih =>
    obtain ⟨-, hqueue⟩ := List.pairwise_cons.mp h
    rw [satisfyQueue_cons]
    split_ifs with hpaid hcover
    · exact List.pairwise_cons.mpr ⟨fun _ _ _ => hpaid, ih hqueue⟩
    · exact List.pairwise_cons.mpr ⟨fun _ _ _ => rfl, ih hqueue⟩
    · exact h

theorem SatisfiedFirst.append {entry : PreBackedEntry} (h : SatisfiedFirst queue) (hunpaid : entry.satisfied = false) :
    SatisfiedFirst (queue ++ [entry]) := by
  refine List.pairwise_append.mpr ⟨h, List.pairwise_singleton _ _, fun older _ newer hnewer hpaid => ?_⟩
  rw [List.mem_singleton.mp hnewer, hunpaid] at hpaid
  cases hpaid

end

/-! ## Steps -/

variable {econ econ' : BondingCurveEconomicState}

/-- The debts that the liquidity share of a buy pays off leave the outstanding debt in its band. -/
def PayoffKeepsBand (econ : BondingCurveEconomicState) : CurveEvent → Prop
  | .buy amountIn =>
    computeDebtState (econ.outstandingPreBacked -
      payoff (computeOnrampSplit amountIn).2.2 (unpaidAmounts econ.preBackedQueue)) =
      computeDebtState econ.outstandingPreBacked
  | _ => True

instance (econ : BondingCurveEconomicState) (event : CurveEvent) : Decidable (PayoffKeepsBand econ event) :=
  match event with
  | .buy _ => inferInstanceAs (Decidable (_ = _))
  | .sale _ => inferInstanceAs (Decidable True)
  | .payroll _ => inferInstanceAs (Decidable True)

theorem genesisEcon_debtAccounted : DebtAccounted genesisEcon where
  outstanding := rfl
  ceiling := by decide
  fifo := List.Pairwise.nil
  liquidity := rfl
  state := by decide

theorem EconStep.debtAccounted {event : CurveEvent} (h : EconStep econ event econ') (hband : PayoffKeepsBand econ event)
    (hecon : DebtAccounted econ) : DebtAccounted econ' := by
  cases h with
  | @buy amountIn treasuryCredit reserveCredit liquidityCredit deltaS pool split gross mint deposit =>
    have hunpaid := satisfyQueue_unpaid liquidityCredit econ.outstandingPreBacked econ.preBackedQueue
    have hold := hecon.outstanding
    refine ⟨?_, ?_, ?_, ?_, ?_⟩
    · simp only [tallied, econAfterBuy_outstandingPreBacked, econAfterBuy_preBackedQueue, satisfyQueue_outstanding]
      omega
    · simp only [tallied, econAfterBuy_outstandingPreBacked, satisfyQueue_outstanding]
      exact (Nat.sub_le _ _).trans hecon.ceiling
    · simp only [tallied, econAfterBuy_preBackedQueue]
      exact hecon.fifo.satisfyQueue
    · simp [tallied]
    · simp only [PayoffKeepsBand, split] at hband
      simp only [tallied, econAfterBuy_debtState, econAfterBuy_outstandingPreBacked, satisfyQueue_outstanding]
      rw [hecon.state, hband]
  | sale payout solvent supply => exact ⟨hecon.outstanding, hecon.ceiling, hecon.fifo, hecon.liquidity, hecon.state⟩
  | payroll amount split ceiling =>
    refine ⟨?_, ceiling, hecon.fifo.append rfl, hecon.liquidity, rfl⟩
    simp [econAfterPayroll, unpaidAmounts, payrollEntry, hecon.outstanding]

/-! ## Runs -/

/-- A buy that pays debts off within their band, or a payroll. -/
def DebtTx (c : Chain) (tx : Transaction) : Prop :=
  tx.transactionType ∈ [.bondingCurveBuy, .processPayroll] ∧
    ∀ event ∈ curveEvent tx, PayoffKeepsBand c.store.state.econ event

instance (c : Chain) (tx : Transaction) : Decidable (DebtTx c tx) := inferInstanceAs (Decidable (_ ∧ _))

/-- Buys and payrolls from the genesis state, each in a block of its own, keep the debt accounted for, as long as no buy
pays debts off down to another band. -/
theorem debt_accounted_while_payoffs_keep_band {st : SledStore} {blocks : List Block} (hgenesis : st.state.econ = genesisEcon)
    (hrun : LoneTxRun X E DebtTx ⟨st, []⟩ blocks) :
    DebtAccounted (run (Chain.offer X E) ⟨st, []⟩ blocks).store.state.econ := by
  refine hrun.invariant (I := fun c => DebtAccounted c.store.state.econ) ?_ ?_
  · rintro c block tx st' halone ⟨htype, hband⟩ hecon
    have hcurve : tx.transactionType ∈ curveTypes := by
      simp only [curveTypes, List.mem_cons, List.not_mem_nil, or_false] at htype ⊢
      exact htype.imp_right .inr
    obtain ⟨event, hevent, hstep⟩ := halone.econStep hcurve
    exact hstep.debtAccounted (hband event hevent) hecon
  · show DebtAccounted st.state.econ
    rw [hgenesis]
    exact genesisEcon_debtAccounted

/-- A payroll and a buy that pays it off. -/
theorem debt_accounted_after_payoff :
    holderStore.state.econ = genesisEcon ∧
      LoneTxRun silentExternals defaultExecutor DebtTx ⟨holderStore, []⟩ [blockAt 2 [payrollTx 12], blockAt 3 [buyTx 1000]] ∧
      DebtAccounted (run (Chain.offer silentExternals defaultExecutor) ⟨holderStore, []⟩
        [blockAt 2 [payrollTx 12], blockAt 3 [buyTx 1000]]).store.state.econ := by
  have hgenesis : holderStore.state.econ = genesisEcon := by decide +kernel
  have hrun : LoneTxRun silentExternals defaultExecutor DebtTx ⟨holderStore, []⟩
      [blockAt 2 [payrollTx 12], blockAt 3 [buyTx 1000]] :=
    ⟨fun _ => ⟨by decide, _, rfl, by decide +kernel⟩, fun _ => ⟨by decide, _, rfl, by decide +kernel⟩, trivial⟩
  exact ⟨hgenesis, hrun, debt_accounted_while_payoffs_keep_band hgenesis hrun⟩

/-- The second payroll lifts the debt out of the lowest band. A buy that pays the first one off takes it back there, and
the recorded debt state stays. -/
theorem payoff_leaves_stale_debt_state :
    let c := run (Chain.offer silentExternals defaultExecutor) ⟨holderStore, []⟩
      [blockAt 2 [payrollTx 12], blockAt 3 [payrollTx (17748000 * SCALE)], blockAt 4 [buyTx 1000]]
    holderStore.state.econ = genesisEcon ∧ c.txs = [payrollTx 12, payrollTx (17748000 * SCALE), buyTx 1000] ∧
      c.store.state.econ.debtState = .yellow ∧ computeDebtState c.store.state.econ.outstandingPreBacked = .green := by
  decide +kernel

end SovereignNetwork.Execution
