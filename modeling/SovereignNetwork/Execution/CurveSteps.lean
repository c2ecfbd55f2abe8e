import SovereignNetwork.Execution.Chain

/-!
# The curve as a state machine

The steps of the economic state under buys, sales and payroll mints. A lone curve transaction takes one of them.
-/

namespace SovereignNetwork.Execution

open Lib Mutator

variable {X : Externals} {E : BlockExecutor} {s : AList Key.Val} {b : Batch Key.Val}

inductive CurveEvent
  | buy (amountIn : Nat)
  | sale (amountCbe : Nat)
  | payroll (data : ProcessPayrollData)
  deriving DecidableEq

inductive EconStep (econ : BondingCurveEconomicState) : CurveEvent → BondingCurveEconomicState → Prop
  | buy {amountIn treasuryCredit reserveCredit liquidityCredit deltaS pool}
      (split : computeOnrampSplit amountIn = (treasuryCredit, reserveCredit, liquidityCredit))
      (gross : amountIn ≤ maxGrossSovPerTx) (mint : mintWithReserve reserveCredit econ.sC = .ok deltaS)
      (deposit : econ.liquidityPool.mint liquidityCredit = .ok pool) :
      EconStep econ (.buy amountIn) (tallied (econAfterBuy econ (econ.sC + deltaS) (econ.reserveBalance + reserveCredit)
        (econ.sovTreasuryCbeBalance + treasuryCredit) liquidityCredit pool) treasuryCredit)
  | sale {amountCbe sovOut} (payout : payoutForBurn amountCbe econ.sC = .ok sovOut) (solvent : sovOut ≤ econ.reserveBalance)
      (supply : amountCbe ≤ econ.sC) : EconStep econ (.sale amountCbe) (econAfterSale econ amountCbe sovOut)
  | payroll {data gross treasuryCredit reserveCredit pool minted blockHeight} (amount : data.amountCbe ≠ 0)
      (split : payrollSplit data.amountCbe = some (gross, treasuryCredit, reserveCredit))
      (ceiling : econ.outstandingPreBacked + gross ≤ debtCeiling) :
      EconStep econ (.payroll data) (econAfterPayroll econ pool (econ.sovTreasuryCbeBalance + treasuryCredit)
        (econ.reserveBalance + reserveCredit) (econ.outstandingPreBacked + gross) minted
        (payrollEntry blockHeight gross data))

/-! ## What the writes leave of the economic state -/

theorem lookup_insert_swap {k k₁ : Key} (hk : k ≠ k₁) (v₁ : Option k₁.Val) (k₂ : Key) (v₂ : Option k₂.Val) :
    AList.lookup k ((b.insert k₁ v₁).insert k₂ v₂) = AList.lookup k (b.insert k₂ v₂) := by
  by_cases h : k = k₂
  · subst h
    rw [AList.lookup_insert, AList.lookup_insert]
  · rw [AList.lookup_insert_ne h, AList.lookup_insert_ne hk, AList.lookup_insert_ne h]

theorem tallied_zero (econ : BondingCurveEconomicState) : tallied econ 0 = econ := by
  unfold tallied checkedAddU128
  split <;> rfl

theorem econ_staged {econ : BondingCurveEconomicState} (h : b.lookup .cbeEconomicState = some (some econ)) :
    (staged s b).econ = econ := by
  have hstaged : staged s b .cbeEconomicState = some econ := by
    rw [staged, latest, h]
    rfl
  rw [ChainState.econ, hstaged]
  rfl

theorem econ_writeBuy {sender : Address} {account : BondingCurveAccountState} {amountIn deltaS credit : Nat}
    {econ : BondingCurveEconomicState} {b' : Batch Key.Val}
    (h : (writeBuy X E sender account amountIn deltaS credit econ).stage sledView s b = .ok ((), b')) :
    b'.lookup .cbeEconomicState = some (some (tallied econ credit)) := by
  obtain ⟨-, ⟨rfl, rfl⟩ | rfl⟩ := stage_writeBuy_eq_ok h
  · rw [tallied_zero, lookup_writeBalance (by simp), lookup_writeBalance (by simp), orderState,
      AList.lookup_insert_ne (by simp), AList.lookup_insert]
  · exact AList.lookup_insert _

theorem econ_writeSale {sender : Address} {account : BondingCurveAccountState} {amountCbe sovOut : Nat}
    {econ : BondingCurveEconomicState} {b' : Batch Key.Val}
    (h : (writeSale X sender account amountCbe sovOut econ).stage sledView s b = .ok ((), b')) :
    b'.lookup .cbeEconomicState = some (some econ) := by
  rw [stage_writeSale_eq_ok h, lookup_writeBalance (by simp), lookup_writeBalance (by simp), orderState,
    AList.lookup_insert_ne (by simp), AList.lookup_insert]

theorem lookup_writeBuy {sender : Address} {account : BondingCurveAccountState} {amountIn deltaS credit : Nat}
    {econ : BondingCurveEconomicState} {b' : Batch Key.Val} {k : Key} (hk : k ≠ .cbeEconomicState)
    (hbalance : ∀ t a, k ≠ .tokenBalance t a)
    (h : (writeBuy X E sender account amountIn deltaS credit econ).stage sledView s b = .ok ((), b')) :
    b'.lookup k = AList.lookup k (b.insert (.cbeAccount sender) (some account)) := by
  have hfirst : (orderState b sender account econ).lookup k = AList.lookup k (b.insert (.cbeAccount sender) (some account)) :=
    lookup_insert_swap hk (some econ) (.cbeAccount sender) (some account)
  obtain ⟨-, ⟨-, rfl⟩ | rfl⟩ := stage_writeBuy_eq_ok h
  · rw [lookup_writeBalance (hbalance _ _), lookup_writeBalance (hbalance _ _), hfirst]
  · rw [AList.lookup_insert_ne hk, lookup_writeBalance (hbalance _ _), lookup_writeBalance (hbalance _ _),
      lookup_writeBalance (hbalance _ _), hfirst]

theorem lookup_writeSale {sender : Address} {account : BondingCurveAccountState} {amountCbe sovOut : Nat}
    {econ : BondingCurveEconomicState} {b' : Batch Key.Val} {k : Key} (hk : k ≠ .cbeEconomicState)
    (hbalance : ∀ t a, k ≠ .tokenBalance t a)
    (h : (writeSale X sender account amountCbe sovOut econ).stage sledView s b = .ok ((), b')) :
    b'.lookup k = AList.lookup k (b.insert (.cbeAccount sender) (some account)) := by
  rw [stage_writeSale_eq_ok h, lookup_writeBalance (hbalance _ _), lookup_writeBalance (hbalance _ _), orderState,
    lookup_insert_swap hk (some econ) (.cbeAccount sender) (some account)]

theorem econ_writePayroll {data : ProcessPayrollData} {credit : Nat} {econ : BondingCurveEconomicState}
    {b' : Batch Key.Val} (h : (writePayroll X E data credit econ).stage sledView s b = .ok ((), b')) :
    b'.lookup .cbeEconomicState = some (some econ) := by
  simp only [writePayroll, Prog.stage_bind_eq_ok, stage_putCbeEconomicState, stage_creditToken_eq_ok] at h
  obtain ⟨⟨⟩, _, hecon, ⟨⟩, _, ⟨-, rfl⟩, -, rfl⟩ := h
  cases hecon
  rw [lookup_writeBalance (by simp), lookup_writeBalance (by simp), AList.lookup_insert]

/-! ## Curve transactions -/

def curveEvent (tx : Transaction) : Option CurveEvent :=
  match tx.transactionType with
  | .bondingCurveBuy =>
    match decodeCanonicalBondingCurveTx tx.memo with
    | .ok (.buy order) => some (.buy order.amount)
    | _ => none
  | .bondingCurveSell =>
    match decodeCanonicalBondingCurveTx tx.memo with
    | .ok (.sell order) => some (.sale order.amount)
    | _ => none
  | .processPayroll => tx.processPayrollData.map .payroll
  | _ => none

def curveTypes : List TransactionType := [.bondingCurveBuy, .bondingCurveSell, .processPayroll]

variable {tx : Transaction} {height : Nat} {o : TxOutcome} {b' : Batch Key.Val}

theorem TxStaged.buy (h : TxStaged X E s height tx b o b') (htype : tx.transactionType = .bondingCurveBuy) :
    ∃ order deltaS econ, decodeCanonicalBondingCurveTx tx.memo = .ok (.buy order) ∧
      OrderAccepted s tx.signature.publicKey.keyId order ∧
      EconStep (committed s).econ (.buy order.amount) (tallied econ (computeOnrampSplit order.amount).1) ∧
      (writeBuy X E order.sender { (committed s).account order.sender with nextNonce := order.nonce + 1 } order.amount
        deltaS (computeOnrampSplit order.amount).1 econ).stage sledView s b = .ok ((), b') := by
  have hp := h.handler .bondingCurveBuy (applyBondingCurveBuy X E tx) (by simp [applyTx, applyTransaction, htype])
  obtain ⟨order, hdecode, haccepted, happly⟩ := stage_applyBondingCurveBuy hp
  obtain ⟨deltaS, pool, hgross, hmint, -, -, -, -, hdeposit, hwrites⟩ := stage_applyBuyCbe_eq_ok.mp happly
  exact ⟨order, deltaS, _, hdecode, haccepted, .buy rfl hgross hmint hdeposit, hwrites⟩

theorem TxStaged.sale (h : TxStaged X E s height tx b o b') (htype : tx.transactionType = .bondingCurveSell) :
    ∃ order sovOut, decodeCanonicalBondingCurveTx tx.memo = .ok (.sell order) ∧
      OrderAccepted s tx.signature.publicKey.keyId order ∧
      EconStep (committed s).econ (.sale order.amount) (econAfterSale (committed s).econ order.amount sovOut) ∧
      sovOut ≤ (committed s).econ.reserveBalance ∧
      (writeSale X order.sender { (committed s).account order.sender with nextNonce := order.nonce + 1 } order.amount
        sovOut (econAfterSale (committed s).econ order.amount sovOut)).stage sledView s b = .ok ((), b') := by
  have hp := h.handler .bondingCurveSell (applyBondingCurveSell X E tx) (by simp [applyTx, applyTransaction, htype])
  obtain ⟨order, hdecode, haccepted, happly⟩ := stage_applyBondingCurveSell hp
  obtain ⟨sovOut, hpayout, -, -, hsolvent, hsupply, hwrites⟩ := stage_applySellCbe_eq_ok.mp happly
  exact ⟨order, sovOut, hdecode, haccepted, .sale hpayout hsolvent hsupply, hsolvent, hwrites⟩

theorem TxStaged.payroll (h : TxStaged X E s height tx b o b') (htype : tx.transactionType = .processPayroll) :
    ∃ data credit econ, curveEvent tx = some (.payroll data) ∧ EconStep (committed s).econ (.payroll data) econ ∧
      (writePayroll X E data credit econ).stage sledView s b = .ok ((), b') := by
  have hp := h.handler .payrollMint (applyPayrollMint X E tx height) (by simp [applyTx, applyTransaction, htype])
  obtain ⟨data, gross, treasuryCredit, reserveCredit, pool, price, hdata, hamount, hsplit, -, hceiling, -, -, -, -, hwrites⟩ :=
    stage_applyPayrollMint_eq_ok.mp hp
  exact ⟨data, treasuryCredit, _, by simp [curveEvent, htype, hdata], .payroll hamount hsplit hceiling, hwrites⟩

theorem TxStaged.order (h : TxStaged X E s height tx b o b')
    (htype : tx.transactionType = .bondingCurveBuy ∨ tx.transactionType = .bondingCurveSell) :
    ∃ curveTx, decodeCanonicalBondingCurveTx tx.memo = .ok curveTx ∧
      OrderAccepted s tx.signature.publicKey.keyId curveTx.order ∧
      ∀ k : Key, k ≠ .cbeEconomicState → (∀ t a, k ≠ .tokenBalance t a) →
        b'.lookup k = AList.lookup k (b.insert (.cbeAccount curveTx.order.sender)
          (some { (committed s).account curveTx.order.sender with nextNonce := curveTx.order.nonce + 1 })) := by
  rcases htype with htype | htype
  · obtain ⟨order, deltaS, econ, hdecode, haccepted, -, hwrites⟩ := h.buy htype
    exact ⟨_, hdecode, haccepted, fun k hk hbalance => lookup_writeBuy hk hbalance hwrites⟩
  · obtain ⟨order, sovOut, hdecode, haccepted, -, -, hwrites⟩ := h.sale htype
    exact ⟨_, hdecode, haccepted, fun k hk hbalance => lookup_writeSale hk hbalance hwrites⟩

theorem TxStaged.econStep (h : TxStaged X E s height tx b o b') (htype : tx.transactionType ∈ curveTypes) :
    ∃ event econ, curveEvent tx = some event ∧ EconStep (committed s).econ event econ ∧
      b'.lookup .cbeEconomicState = some (some econ) := by
  simp only [curveTypes, List.mem_cons, List.not_mem_nil, or_false] at htype
  rcases htype with htype | htype | htype
  · obtain ⟨order, deltaS, econ, hdecode, -, hstep, hwrites⟩ := h.buy htype
    exact ⟨_, _, by simp [curveEvent, htype, hdecode], hstep, econ_writeBuy hwrites⟩
  · obtain ⟨order, sovOut, hdecode, -, hstep, -, hwrites⟩ := h.sale htype
    exact ⟨_, _, by simp [curveEvent, htype, hdecode], hstep, econ_writeSale hwrites⟩
  · obtain ⟨data, credit, econ, hevent, hstep, hwrites⟩ := h.payroll htype
    exact ⟨_, _, hevent, hstep, econ_writePayroll hwrites⟩

theorem curveTypes_ne_coinbase {tx : Transaction} (htype : tx.transactionType ∈ curveTypes) :
    tx.transactionType ≠ .coinbase := by
  rintro h
  rw [h] at htype
  simp [curveTypes] at htype

/-- The curve's state machine refined: a lone curve transaction takes one step. -/
theorem AppliedAlone.econStep {st st' : SledStore} {block : Block} (h : AppliedAlone X E st block tx st')
    (htype : tx.transactionType ∈ curveTypes) :
    ∃ event, curveEvent tx = some event ∧ EconStep st.state.econ event st'.state.econ := by
  obtain ⟨o, b, hstaged, hstate⟩ := h.staged (curveTypes_ne_coinbase htype)
  obtain ⟨event, econ, hevent, hstep, hecon⟩ := hstaged.econStep htype
  have hafter : st'.state.econ = econ := by
    rw [ChainState.econ, hstate .cbeEconomicState (by simp [Key.IsState, Key.tree])]
    exact econ_staged hecon
  exact ⟨event, hevent, hafter ▸ hstep⟩

/-! ## Blocks -/

def genesisEcon : BondingCurveEconomicState :=
  { BondingCurveEconomicState.default with genesisTreasuryAllocation := genesisTreasuryAllocation }

theorem ChainState.econ_congr {σ τ : ChainState} (h : σ .cbeEconomicState = τ .cbeEconomicState) : σ.econ = τ.econ := by
  rw [ChainState.econ, h, ChainState.econ]

theorem econ_of_genesis {st st' : SledStore} {block : Block} {o : ApplyOutcome}
    (h : applyBlock X E st block = .ok (o, st')) (hheight : block.header.height = 0) : st'.state.econ = genesisEcon := by
  obtain ⟨totals, b, b', -, hgenesis, hfinish, rfl⟩ := applyBlock_eq_ok h
  rw [applyContents, if_pos hheight] at hgenesis
  have hb : b.lookup .cbeEconomicState = some (some genesisEcon) := by
    simp only [applyGenesis, Prog.stage_bind_eq_ok, stage_putCbeEconomicState, stage_getTokenBalance,
      stage_setTokenBalance] at hgenesis
    obtain ⟨⟨⟩, _, hecon, _, _, hbalance, ⟨⟩, _, htreasury, hdone⟩ := hgenesis
    cases hecon
    cases hbalance
    cases htreasury
    cases hdone
    rw [AList.lookup_insert_ne (by simp), AList.lookup_insert]
    rfl
  have hstate : Key.cbeEconomicState.IsState := by simp [Key.IsState, Key.tree]
  refine Eq.trans (ChainState.econ_congr (τ := staged st.trees b) ?_) (econ_staged hb)
  exact (st.lookup_commitBlock b' hstate.1).trans (latest_finishBlock hstate hfinish)

theorem curveTypes_of_metaTree {type : TransactionType} (h : some .metaTree ∈ type.trees) : type ∈ curveTypes := by
  cases type <;> first | decide | exact absurd h (by decide)

theorem Accepts.econ_invariant {P : BondingCurveEconomicState → Prop} {st st' : SledStore} {block : Block}
    (h : Accepts X E st block st') (hgenesis : P genesisEcon)
    (hstep : ∀ {econ event econ'}, EconStep econ event econ' → P econ → P econ') (hP : P st.state.econ) :
    P st'.state.econ := by
  obtain ⟨o, h⟩ := h
  by_cases hheight : block.header.height = 0
  · rw [econ_of_genesis h hheight]
    exact hgenesis
  obtain ⟨fees, b₁, b₂, htxs, hcoinbase, hstate⟩ := applyBlock_staged h hheight
  have hloop : P (staged st.trees b₁).econ := by
    refine htxs.invariant (I := fun _ _ b => P (staged st.trees b).econ) (List.nil_append _) ?_ hP
    intro done tx rest fees b o b' _ htx hb
    by_cases htype : tx.transactionType ∈ curveTypes
    · obtain ⟨event, econ, -, hecon, hlookup⟩ := htx.econStep htype
      rw [econ_staged hlookup]
      exact hstep hecon hP
    · have hframe := htx.lookup_eq (k := .cbeEconomicState) fun hmem => htype (curveTypes_of_metaTree hmem)
      rwa [ChainState.econ_congr (σ := staged st.trees b') (τ := staged st.trees b)
      (by rw [staged, staged, latest, latest, hframe])]
  have hlast := hcoinbase.lookup_eq (k := .cbeEconomicState) (by decide)
  rwa [ChainState.econ_congr (σ := st'.state) (τ := staged st.trees b₁)]
  refine (hstate .cbeEconomicState (by simp [Key.IsState, Key.tree])).trans ?_
  rw [staged, staged, latest, latest, hlast]

/-! ## Orders and payrolls to run -/

def curveOrderTx (curveTx : CanonicalBondingCurveTx) : Transaction :=
  { tokenTx (if curveTx.isBuy then .bondingCurveBuy else .bondingCurveSell) .none with
    signature := ⟨[], .ofKeyId curveTx.order.sender⟩
    memo := encodeCanonicalBondingCurveTx curveTx }

def buyTx (amountIn : Nat) : Transaction := curveOrderTx (.buy ⟨1, 0, 10, amountIn, u128Max, 0⟩)

def payrollTx (amountCbe : Nat) : Transaction :=
  { tokenTx .processPayroll (.processPayroll ⟨5, amountCbe, 20, 6⟩) with signature := ⟨[], .ofKeyId 10⟩ }

end SovereignNetwork.Execution
