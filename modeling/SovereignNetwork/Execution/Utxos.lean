import SovereignNetwork.Execution.Chain
import SovereignNetwork.Execution.Lemmas.Utxos
import SovereignNetwork.Execution.RequiredFee

/-!
# Unspent outputs along a chain

Every transfer of a block looks for its inputs in the committed UTXO set, so two of them can spend one outpoint. A
coinbase that a later block repeats creates its outpoints again.
-/

namespace SovereignNetwork.Execution

open Lib Mutator

variable {X : Externals} {E : BlockExecutor} {s : AList Key.Val} {b b' : Batch Key.Val} {height : Nat}

def Transaction.spends (tx : Transaction) : List OutPoint :=
  if tx.transactionType = .transfer then tx.inputs.map (·.outPoint) else []

def spendsOf (txs : List Transaction) : List OutPoint := txs.flatMap Transaction.spends

def transferFees (txs : List Transaction) : Nat :=
  ((txs.filter fun tx => tx.transactionType = .transfer).map (·.fee)).sum

def Block.HasCoinbase (block : Block) : Prop := ∃ tx ∈ block.appliedTxs, tx.transactionType = .coinbase

instance (block : Block) : Decidable block.HasCoinbase :=
  inferInstanceAs (Decidable (∃ tx ∈ block.appliedTxs, tx.transactionType = .coinbase))

theorem spendsOf_append (txs txs' : List Transaction) : spendsOf (txs ++ txs') = spendsOf txs ++ spendsOf txs' :=
  List.flatMap_append

theorem spendsOf_concat (txs : List Transaction) (tx : Transaction) : spendsOf (txs ++ [tx]) = spendsOf txs ++ tx.spends := by
  simp [spendsOf]

theorem transferFees_concat (txs : List Transaction) (tx : Transaction) :
    transferFees (txs ++ [tx]) = transferFees txs + if tx.transactionType = .transfer then tx.fee else 0 := by
  unfold transferFees
  by_cases h : tx.transactionType = .transfer <;> simp [h]

theorem transferFees_append (txs txs' : List Transaction) :
    transferFees (txs ++ txs') = transferFees txs + transferFees txs' := by
  simp [transferFees]

/-! ## One transaction -/

section

variable {tx : Transaction} {o : TxOutcome}

theorem TxStaged.transfer (h : TxStaged X E s height tx b o b') (htype : tx.transactionType = .transfer) :
    ∃ o', o = .transfer o' ∧
      (applyNativeTransfer X tx (X.hashTransaction tx) height).stage sledView s b = .ok (o', b') := by
  have happlied := h.applied
  unfold applyTx at happlied
  rw [if_neg (by simp [htype]), applyTransaction, htype] at happlied
  obtain ⟨o', b₁, hp, hdone⟩ := Prog.stage_bind_eq_ok.mp happlied
  cases hdone
  exact ⟨o', rfl, hp⟩

theorem fee_of_outcome {o' : TxOutcome} {p : TxProg Unit} (h : (outcome o p).stage sledView s b = .ok (o', b'))
    (hfee : o.fee = 0) : o'.fee = 0 := by
  obtain ⟨⟨⟩, b₁, hp, hdone⟩ := Prog.stage_bind_eq_ok.mp h
  cases hdone
  exact hfee

theorem TxStaged.fee_eq (h : TxStaged X E s height tx b o b') :
    o.fee = if tx.transactionType = .transfer then tx.fee else 0 := by
  split
  · next htype =>
    obtain ⟨o', rfl, hp⟩ := h.transfer htype
    exact (stage_applyNativeTransfer hp).2.2.1
  · next htype =>
    have happlied := h.applied
    unfold applyTx at happlied
    split at happlied
    · cases happlied
    · next hcoinbase =>
      simp only [applyTransaction] at happlied
      split at happlied
      · next h => exact absurd h htype
      · next h => exact absurd h hcoinbase
      all_goals first
        | exact fee_of_outcome happlied rfl
        | cases happlied; rfl
        | cases happlied

theorem TxStaged.spends_ne_nil (h : TxStaged X E s height tx b o b') (htype : tx.transactionType = .transfer) :
    tx.spends ≠ [] := by
  obtain ⟨o', -, hp⟩ := h.transfer htype
  rw [Transaction.spends, if_pos htype]
  simpa using inputs_ne_nil_of_transfer hp

theorem TxStaged.unspent (h : TxStaged X E s height tx b o b') : ∀ op ∈ tx.spends, (committed s).utxo op ≠ none := by
  unfold Transaction.spends
  split
  · next htype =>
    obtain ⟨o', -, hp⟩ := h.transfer htype
    obtain ⟨-, -, -, spent, created, b₁, hspend, -⟩ := stage_applyNativeTransfer hp
    exact unspent_of_spendInputs hspend
  · simp

theorem TxStaged.utxo_eq (h : TxStaged X E s height tx b o b') (htype : tx.transactionType ≠ .transfer) (op : OutPoint) :
    b'.lookup (.utxo op) = b.lookup (.utxo op) := by
  refine h.lookup_eq ?_
  have hcoinbase : tx.transactionType ≠ .coinbase := by
    intro hcoinbase
    have happlied := h.applied
    rw [applyTx, if_pos hcoinbase] at happlied
    cases happlied
  cases hcases : tx.transactionType with
  | transfer => exact absurd hcases htype
  | coinbase => exact absurd hcases hcoinbase
  | _ => simp [TransactionType.trees, Key.tree]

end

/-! ## The loop -/

structure LoopUtxos (X : Externals) (s : AList Key.Val) (done : List Transaction) (fees : Nat) (b : Batch Key.Val) :
    Prop where
  spent : ∀ op ∈ spendsOf done, (committed s).utxo op ≠ none ∧ b.lookup (.utxo op) = some none
  written : ∀ op, b.lookup (.utxo op) ≠ none →
    op ∈ spendsOf done ∨ ∃ tx ∈ done, tx.transactionType = .transfer ∧ X.hashTransaction tx = op.tx
  total : totalAfter utxoWeight s b + transferFees done = utxoTotal s
  fees : fees = transferFees done

/-- The outpoints of the transaction are not in the UTXO set. -/
def Unissued (X : Externals) (σ : ChainState) (tx : Transaction) : Prop := ∀ i, σ.utxo ⟨X.hashTransaction tx, i⟩ = none

theorem Unissued.utxo {σ : ChainState} {tx : Transaction} (h : Unissued X σ tx) {op : OutPoint}
    (hhash : X.hashTransaction tx = op.tx) : σ.utxo op = none := by
  obtain ⟨hash, i⟩ := op
  cases hhash
  exact h i

/-- The transfers of the list find their own outpoints unused, by one another too. -/
structure TransfersApart (X : Externals) (s : AList Key.Val) (txs : List Transaction) : Prop where
  hash : ∀ tx ∈ txs, ∀ tx' ∈ txs, X.hashTransaction tx = X.hashTransaction tx' → tx = tx'
  spends : (spendsOf txs).Nodup
  unissued : ∀ tx ∈ txs, tx.transactionType = .transfer → Unissued X (committed s) tx

section

variable {done rest : List Transaction} {tx : Transaction} {fees : Nat} {o : TxOutcome}

theorem LoopUtxos.lookup_eq_none (h : LoopUtxos X s done fees b)
    (hunissued : ∀ tx ∈ done, tx.transactionType = .transfer → Unissued X (committed s) tx)
    {op : OutPoint} (hunspent : (committed s).utxo op ≠ none) (hop : op ∉ spendsOf done) : b.lookup (.utxo op) = none := by
  by_contra hb
  rcases h.written op hb with hspent | ⟨tx', htx', htype, hhash⟩
  · exact hop hspent
  · exact hunspent ((hunissued tx' htx' htype).utxo hhash)

theorem LoopUtxos.transfer_step (h : LoopUtxos X s done fees b) (htx : TxStaged X E s height tx b o b')
    (htype : tx.transactionType = .transfer) (hapart : TransfersApart X s (done ++ tx :: rest))
    (houtputs : tx.outputs.length ≤ 2 ^ 32) (hfees : transferFees (done ++ [tx]) < 2 ^ 128) :
    LoopUtxos X s (done ++ [tx]) (wrapU128 (fees + o.fee)) b' := by
  have hmem : tx ∈ done ++ tx :: rest := by simp
  have hspends : tx.spends = tx.inputs.map (·.outPoint) := if_pos htype
  have hnodup : (spendsOf done ++ (tx.spends ++ spendsOf rest)).Nodup := by
    have := hapart.spends
    rwa [spendsOf_append] at this
  have hnew : ∀ op ∈ tx.spends, op ∉ spendsOf done := fun op hop hdone =>
    (List.disjoint_of_nodup_append hnodup) hdone (List.mem_append_left _ hop)
  have hunspent := htx.unspent
  have hunissued := hapart.unissued tx hmem htype
  obtain ⟨o', rfl, hp⟩ := htx.transfer htype
  obtain ⟨-, hdistinct, hfee, spent, created, b₁, hspend, hcreate, hsum⟩ := stage_applyNativeTransfer hp
  have hinputs := stage_spendInputs hspend (nodup_of_duplicateInput hdistinct).1 (hspends ▸ fun op hop =>
    h.lookup_eq_none (fun tx' htx' => hapart.unissued tx' (List.mem_append_left _ htx')) (hunspent op hop) (hnew op hop))
  rw [← hspends] at hinputs
  have hcreated := stage_createTransferOutputs hcreate
  -- The outpoints of this transfer are consumed by none of the block's, and no other has its hash.
  have hfresh : ∀ i, b₁.lookup (.utxo ⟨X.hashTransaction tx, i⟩) = none := by
    intro i
    have hnot : ∀ op ∈ spendsOf done ++ tx.spends, op ≠ ⟨X.hashTransaction tx, i⟩ := by
      rintro op hop rfl
      refine absurd (hunissued i) ?_
      rcases List.mem_append.mp hop with hop | hop
      · exact (h.spent _ hop).1
      · exact hunspent _ hop
    rw [hinputs.lookup, if_neg fun hop => hnot _ (List.mem_append_right _ hop) rfl]
    by_contra hb
    rcases h.written _ hb with hop | ⟨tx', htx', htype', hhash⟩
    · exact hnot _ (List.mem_append_left _ hop) rfl
    · obtain rfl := hapart.hash tx' (List.mem_append_left _ htx') tx hmem hhash
      obtain ⟨op, hop⟩ := List.exists_mem_of_ne_nil _ (htx.spends_ne_nil htype)
      exact hnew op hop (List.mem_flatMap.mpr ⟨tx', htx', hop⟩)
  have htotal := hcreated.total (by omega) fun i _ => ⟨hfresh i, hunissued i⟩
  have hlast : transferFees (done ++ [tx]) = transferFees done + tx.fee := by
    rw [transferFees_concat, if_pos htype]
  refine ⟨fun op hop => ?_, fun op hop => ?_, ?_, ?_⟩
  · rw [spendsOf_concat, List.mem_append] at hop
    have hused : (committed s).utxo op ≠ none := hop.elim (fun hop => (h.spent op hop).1) (hunspent op)
    have hother : op.tx ≠ X.hashTransaction tx := fun heq => hused (hunissued.utxo heq.symm)
    refine ⟨hused, ?_⟩
    rw [hcreated.others op hother, hinputs.lookup]
    split
    · rfl
    · next hnot => exact (h.spent op (hop.resolve_right hnot)).2
  · rw [spendsOf_concat, List.mem_append]
    by_cases hhash : op.tx = X.hashTransaction tx
    · exact .inr ⟨tx, by simp, htype, hhash.symm⟩
    · rw [hcreated.others op hhash, hinputs.lookup] at hop
      split at hop
      · next hmem => exact .inl (.inr hmem)
      · exact (h.written op hop).imp .inl fun ⟨tx', htx', hrest⟩ => ⟨tx', List.mem_append_left _ htx', hrest⟩
  · have hin := hinputs.total
    have hold := h.total
    omega
  · rw [TxOutcome.fee, hfee, h.fees, ← hlast]
    exact Nat.mod_eq_of_lt hfees

theorem LoopUtxos.step (h : LoopUtxos X s done fees b) (htx : TxStaged X E s height tx b o b')
    (hapart : TransfersApart X s (done ++ tx :: rest)) (houtputs : tx.outputs.length ≤ 2 ^ 32)
    (hfees : transferFees (done ++ [tx]) < 2 ^ 128) : LoopUtxos X s (done ++ [tx]) (wrapU128 (fees + o.fee)) b' := by
  by_cases htype : tx.transactionType = .transfer
  · exact h.transfer_step htx htype hapart houtputs hfees
  have hspends : spendsOf (done ++ [tx]) = spendsOf done := by
    rw [spendsOf_concat, Transaction.spends, if_neg htype, List.append_nil]
  have hlast : transferFees (done ++ [tx]) = transferFees done := by
    rw [transferFees_concat, if_neg htype, Nat.add_zero]
  have hfee := htx.fee_eq
  rw [if_neg htype] at hfee
  refine ⟨fun op hop => ?_, fun op hop => ?_, ?_, ?_⟩
  · rw [htx.utxo_eq htype]
    exact h.spent op (hspends ▸ hop)
  · rw [htx.utxo_eq htype] at hop
    rw [hspends]
    exact (h.written op hop).imp_right fun ⟨tx', htx', hrest⟩ => ⟨tx', List.mem_append_left _ htx', hrest⟩
  · rw [totalAfter_utxo_congr (htx.utxo_eq htype), hlast]
    exact h.total
  · rw [hfee, hlast, Nat.add_zero, h.fees]
    exact Nat.mod_eq_of_lt (hlast ▸ hfees)

theorem TxsStaged.utxos {txs : List Transaction} (h : TxsStaged X E s height 0 ∅ txs fees b)
    (hapart : TransfersApart X s txs) (houtputs : ∀ tx ∈ txs, tx.outputs.length ≤ 2 ^ 32)
    (hfees : transferFees txs < 2 ^ 128) : LoopUtxos X s txs fees b := by
  have hall : [] ++ txs = txs := rfl
  refine h.invariant (I := LoopUtxos X s) hall ?_ ?_
  · rintro done tx rest fees b o b' rfl htx hdone
    have hpart : transferFees (done ++ [tx]) ≤ transferFees (done ++ tx :: rest) := by
      rw [List.append_cons done tx rest, transferFees_append _ rest]
      exact Nat.le_add_right _ _
    exact hdone.step htx hapart (houtputs tx (by simp)) (hpart.trans_lt hfees)
  · exact ⟨by simp [spendsOf], by simp, rfl, rfl⟩

end

/-! ## The block -/

/-- Condition on a block: each outpoint is consumed once, the coinbase is new, and the counters have room. -/
structure UtxoSafe (c : Chain) (block : Block) : Prop where
  spends : (spendsOf block.appliedTxs).Nodup
  coinbase : ∀ tx ∈ block.appliedTxs, tx.transactionType = .coinbase → tx ∉ c.txs
  outputs : ∀ tx ∈ block.appliedTxs, tx.outputs.length ≤ 2 ^ 32
  fees : transferFees block.appliedTxs < 2 ^ 128

instance (c : Chain) (block : Block) : Decidable (UtxoSafe c block) :=
  decidable_of_iff ((spendsOf block.appliedTxs).Nodup ∧
    (∀ tx ∈ block.appliedTxs, tx.transactionType = .coinbase → tx ∉ c.txs) ∧
    (∀ tx ∈ block.appliedTxs, tx.outputs.length ≤ 2 ^ 32) ∧ transferFees block.appliedTxs < 2 ^ 128)
    ⟨fun h => ⟨h.1, h.2.1, h.2.2.1, h.2.2.2⟩, fun h => ⟨h.spends, h.coinbase, h.outputs, h.fees⟩⟩

structure UtxoStep (X : Externals) (E : BlockExecutor) (st : SledStore) (block : Block) (st' : SledStore) : Prop where
  /-- What the block consumes was unspent, and no longer is. -/
  spent : ∀ op ∈ spendsOf block.appliedTxs, st.state.utxo op ≠ none ∧ st'.state.utxo op = none
  /-- The other outpoints keep what they hold. -/
  kept : ∀ op, st.state.utxo op ≠ none → op ∉ spendsOf block.appliedTxs → st'.state.utxo op = st.state.utxo op
  /-- What the block creates is at outpoints that held nothing. -/
  created : ∀ tx ∈ block.appliedTxs, tx.transactionType ∈ [.transfer, .coinbase] → Unissued X st.state tx
  /-- New outpoints are those of the block's transfers and its coinbase. -/
  origin : ∀ op, st.state.utxo op = none → st'.state.utxo op ≠ none →
    ∃ tx ∈ block.appliedTxs, tx.transactionType ∈ [.transfer, .coinbase] ∧ X.hashTransaction tx = op.tx
  total : (utxoTotal st'.trees : Int) = utxoTotal st.trees +
    if block.HasCoinbase then (E.blockReward : Int) else - transferFees block.appliedTxs

def Chain.spent (c : Chain) : List OutPoint := spendsOf c.txs

/-- What is unspent or was spent comes from the chain's own transactions, as far as these are among those offered. -/
structure UtxoInvariant (X : Externals) (offered : List Transaction) (c : Chain) : Prop where
  spent : c.spent.Nodup
  gone : ∀ op ∈ c.spent, c.store.state.utxo op = none
  origin : ∀ op, c.store.state.utxo op ≠ none ∨ op ∈ c.spent →
    ∀ tx ∈ offered, X.hashTransaction tx = op.tx → tx ∈ c.txs

section

variable {c : Chain} {block : Block} {st : SledStore} {offered : List Transaction}

theorem spendsOf_nonCoinbaseTxs (block : Block) : spendsOf (nonCoinbaseTxs block) = spendsOf block.transactions := by
  unfold nonCoinbaseTxs
  induction block.transactions with
  | nil => rfl
  | cons tx txs ih =>
    have hcons : spendsOf (tx :: txs) = tx.spends ++ spendsOf txs := List.flatMap_cons
    by_cases htype : tx.transactionType = .coinbase
    · rw [List.filter_cons_of_neg (by simp [htype]), ih, hcons, Transaction.spends, if_neg (by simp [htype])]
      rfl
    · rw [List.filter_cons_of_pos (by simp [htype]), hcons, ← ih]
      rfl

theorem transferFees_nonCoinbaseTxs (block : Block) :
    transferFees (nonCoinbaseTxs block) = transferFees block.transactions := by
  unfold transferFees nonCoinbaseTxs
  rw [List.filter_filter]
  congr 2
  refine List.filter_congr fun tx _ => ?_
  by_cases h : tx.transactionType = .transfer <;> simp [h]

theorem UtxoInvariant.unissued (hc : UtxoInvariant X offered c) {tx : Transaction} (hoffered : tx ∈ offered)
    (hnew : tx ∉ c.txs) : Unissued X c.store.state tx := by
  intro i
  by_contra hutxo
  exact hnew (hc.origin ⟨X.hashTransaction tx, i⟩ (.inl hutxo) tx hoffered rfl)

theorem UtxoInvariant.transfer_new (hc : UtxoInvariant X offered c) (h : Accepts X E c.store block st) {tx : Transaction}
    (htx : tx ∈ block.appliedTxs) (htype : tx.transactionType = .transfer) : tx ∉ c.txs := by
  intro hold
  obtain ⟨b, o, b', hstaged⟩ := h.exists_staged htx (by simp [htype])
  obtain ⟨op, hop⟩ := List.exists_mem_of_ne_nil _ (hstaged.spends_ne_nil htype)
  exact hstaged.unspent op hop (hc.gone op (List.mem_flatMap.mpr ⟨tx, hold, hop⟩))

theorem CoinbaseStaged.created {tx : Transaction} {fees : Nat} (h : CoinbaseStaged X E s height fees (some tx) b b') :
    OutputsCreated s (X.hashTransaction tx) 0 tx.outputs.length 0 (E.blockReward + fees) b b' := by
  obtain ⟨-, o, happly⟩ := h
  unfold applyCoinbaseWithFees at happly
  split at happly
  · cases happly
  · exact stage_applyCoinbase happly

theorem LoopUtxos.coinbase {txs : List Transaction} {coinbase : Option Transaction} {fees : Nat}
    (h : LoopUtxos X s txs fees b) (hcoinbase : CoinbaseStaged X E s height fees coinbase b b')
    (hunissued : ∀ tx ∈ coinbase, Unissued X (committed s) tx)
    (hhash : ∀ tx ∈ coinbase, ∀ tx' ∈ txs, X.hashTransaction tx' ≠ X.hashTransaction tx)
    (houtputs : ∀ tx ∈ coinbase, tx.outputs.length ≤ 2 ^ 32) :
    (∀ op : OutPoint, (∀ tx ∈ coinbase, X.hashTransaction tx ≠ op.tx) → b'.lookup (.utxo op) = b.lookup (.utxo op)) ∧
      (totalAfter utxoWeight s b' : Int) =
        utxoTotal s + if coinbase.isSome then (E.blockReward : Int) else - transferFees txs := by
  have hloop := h.total
  cases coinbase with
  | none =>
    obtain rfl := hcoinbase
    refine ⟨fun _ _ => rfl, ?_⟩
    simp only [Option.isSome_none, Bool.false_eq_true, if_false]
    omega
  | some tx =>
    have hcreated := hcoinbase.created
    have hunissued := hunissued tx rfl
    have hfresh : ∀ i, b.lookup (.utxo ⟨X.hashTransaction tx, i⟩) = none := by
      intro i
      by_contra hb
      rcases h.written _ hb with hop | ⟨tx', htx', -, heq⟩
      · exact (h.spent _ hop).1 (hunissued i)
      · exact hhash tx rfl tx' htx' heq
    have htotal := hcreated.total (by simpa using houtputs tx rfl) fun i _ => ⟨hfresh i, hunissued i⟩
    refine ⟨fun op hop => hcreated.others op (hop tx rfl).symm, ?_⟩
    have hfees := h.fees
    simp only [Option.isSome_some, if_true]
    omega

theorem utxoStep_genesis {st st' : SledStore} {o : ApplyOutcome} (h : applyBlock X E st block = .ok (o, st'))
    (hheight : block.header.height = 0) : UtxoStep X E st block st' := by
  have hnil : block.appliedTxs = [] := if_pos hheight
  have hutxo : ∀ op, st'.state.utxo op = st.state.utxo op := fun op =>
    applyBlock_genesis h hheight (k := .utxo op) (by simp [Key.IsState, Key.tree]) nofun nofun
  have htotal : utxoTotal st'.trees = utxoTotal st.trees := by
    refine total_congr fun k => ?_
    cases k with
    | utxo op => exact congrArg _ (hutxo op)
    | _ => rw [weight_eq_zero fun _ => rfl, weight_eq_zero fun _ => rfl]
  refine ⟨by simp [hnil, spendsOf], fun op _ _ => hutxo op, by simp [hnil], fun op hnone hsome => ?_, ?_⟩
  · exact absurd ((hutxo op).trans hnone) hsome
  simp [htotal, Block.HasCoinbase, hnil, transferFees]

/-- The step lemma: what a safe block does to the UTXO set. -/
theorem Accepts.utxoStep (h : Accepts X E c.store block st) (hsafe : UtxoSafe c block) (hc : UtxoInvariant X offered c)
    (hoffered : ∀ tx ∈ block.transactions, tx ∈ offered)
    (hhash : ∀ tx ∈ offered, ∀ tx' ∈ offered, X.hashTransaction tx = X.hashTransaction tx' → tx = tx') :
    UtxoStep X E c.store block st := by
  have haccept := h
  obtain ⟨o, h⟩ := h
  by_cases hheight : block.header.height = 0
  · exact utxoStep_genesis h hheight
  have happlied : block.appliedTxs = block.transactions := if_neg hheight
  have hcreated : ∀ tx ∈ block.appliedTxs, tx.transactionType ∈ [.transfer, .coinbase] → Unissued X c.store.state tx := by
    intro tx htx htype
    refine hc.unissued (hoffered tx (happlied ▸ htx)) ?_
    rcases List.mem_pair.mp htype with htype | htype
    · exact hc.transfer_new haccept htx htype
    · exact hsafe.coinbase tx htx htype
  obtain ⟨fees, b₁, b₂, htxs, hcoinbase, hstate⟩ := applyBlock_staged h hheight
  have hsub : ∀ tx ∈ nonCoinbaseTxs block, tx ∈ block.appliedTxs := fun tx htx => happlied ▸ List.mem_of_mem_filter htx
  have hspends : spendsOf (nonCoinbaseTxs block) = spendsOf block.appliedTxs :=
    happlied ▸ spendsOf_nonCoinbaseTxs block
  have hfees : transferFees (nonCoinbaseTxs block) = transferFees block.appliedTxs :=
    happlied ▸ transferFees_nonCoinbaseTxs block
  have hunissued : ∀ tx ∈ nonCoinbaseTxs block, tx.transactionType = .transfer → Unissued X c.store.state tx :=
    fun tx htx htype => hcreated tx (hsub tx htx) (by simp [htype])
  have hloop : LoopUtxos X c.store.trees (nonCoinbaseTxs block) fees b₁ := by
    refine htxs.utxos ⟨fun tx htx tx' htx' => ?_, hspends ▸ hsafe.spends, hunissued⟩
      (fun tx htx => hsafe.outputs tx (hsub tx htx)) (hfees ▸ hsafe.fees)
    exact hhash tx (hoffered tx (List.mem_of_mem_filter htx)) tx' (hoffered tx' (List.mem_of_mem_filter htx'))
  have hutxo : ∀ op, st.state.utxo op = (Execution.staged c.store.trees b₂).utxo op := fun op =>
    hstate (.utxo op) (by simp [Key.IsState, Key.tree])
  have htotal : utxoTotal st.trees = totalAfter utxoWeight c.store.trees b₂ := by
    refine total_of_state hstate fun k hk => utxoWeight_eq_zero ?_
    rintro op rfl
    exact hk (by simp [Key.IsState, Key.tree])
  have hcb : ∀ tx ∈ coinbaseOf block, tx.transactionType = .coinbase ∧ tx ∈ block.appliedTxs := fun tx htx =>
    ⟨by simpa using List.find?_some htx, happlied ▸ List.mem_of_find?_eq_some htx⟩
  have hown : ∀ tx ∈ coinbaseOf block, Unissued X c.store.state tx := fun tx htx =>
    hcreated tx (hcb tx htx).2 (by simp [(hcb tx htx).1])
  have hother : ∀ tx ∈ coinbaseOf block, ∀ tx' ∈ nonCoinbaseTxs block, X.hashTransaction tx' ≠ X.hashTransaction tx := by
    intro tx htx tx' htx' heq
    have hsame := hhash tx' (hoffered tx' (List.mem_of_mem_filter htx')) tx (hoffered tx (happlied ▸ (hcb tx htx).2)) heq
    have hne : tx'.transactionType ≠ .coinbase := by simpa using List.of_mem_filter htx'
    exact hne (hsame ▸ (hcb tx htx).1)
  obtain ⟨hlast, hsum⟩ := hloop.coinbase hcoinbase hown hother fun tx htx => hsafe.outputs tx (hcb tx htx).2
  have hkeep : ∀ op, c.store.state.utxo op ≠ none → b₂.lookup (.utxo op) = b₁.lookup (.utxo op) := fun op hop =>
    hlast op fun tx htx heq => hop ((hown tx htx).utxo heq)
  refine ⟨fun op hop => ?_, fun op hop hnot => ?_, hcreated, fun op hnone hsome => ?_, ?_⟩
  · obtain ⟨hunspent, hb⟩ := hloop.spent op (hspends ▸ hop)
    refine ⟨hunspent, ?_⟩
    rw [hutxo, ChainState.utxo, Execution.staged, latest, hkeep op hunspent, hb]
    rfl
  · rw [hutxo]
    exact staged_of_lookup ((hkeep op hop).trans (hloop.lookup_eq_none hunissued hop (hspends ▸ hnot)))
  · by_cases hhead : ∃ tx ∈ coinbaseOf block, X.hashTransaction tx = op.tx
    · obtain ⟨tx, htx, heq⟩ := hhead
      exact ⟨tx, (hcb tx htx).2, by simp [(hcb tx htx).1], heq⟩
    · have hb : b₁.lookup (.utxo op) ≠ none := by
        intro hb
        rw [hutxo] at hsome
        refine hsome ((staged_of_lookup ?_).trans hnone)
        rw [hlast op fun tx htx heq => hhead ⟨tx, htx, heq⟩, hb]
      rcases hloop.written op hb with hop | ⟨tx, htx, htype, heq⟩
      · exact absurd hnone (hloop.spent op hop).1
      · exact ⟨tx, hsub tx htx, by simp [htype], heq⟩
  · rw [htotal, hsum, hfees]
    congr 1
    refine if_congr ?_ rfl rfl
    rw [coinbaseOf, List.find?_isSome]
    simp [Block.HasCoinbase, happlied]

theorem UtxoInvariant.step (hc : UtxoInvariant X offered c) (h : Accepts X E c.store block st) (hsafe : UtxoSafe c block)
    (hoffered : ∀ tx ∈ block.transactions, tx ∈ offered)
    (hhash : ∀ tx ∈ offered, ∀ tx' ∈ offered, X.hashTransaction tx = X.hashTransaction tx' → tx = tx') :
    UtxoInvariant X offered ⟨st, c.blocks ++ [block]⟩ := by
  have hstep := h.utxoStep hsafe hc hoffered hhash
  have happlied : ∀ tx ∈ block.appliedTxs, tx ∈ offered := fun tx htx => hoffered tx (block.appliedTxs_sublist.mem htx)
  have hspent : Chain.spent ⟨st, c.blocks ++ [block]⟩ = c.spent ++ spendsOf block.appliedTxs := by
    rw [Chain.spent, c.txs_concat, spendsOf_append, ← Chain.spent]
  -- A spent outpoint is never created again: its transaction is in the chain already.
  have hnew : ∀ op ∈ c.spent, ∀ tx ∈ block.appliedTxs, tx.transactionType ∈ [.transfer, .coinbase] →
      X.hashTransaction tx ≠ op.tx := by
    intro op hop tx htx htype heq
    have hold := hc.origin op (.inr hop) tx (happlied tx htx) heq
    rcases List.mem_pair.mp htype with htype | htype
    · exact hc.transfer_new h htx htype hold
    · exact hsafe.coinbase tx htx htype hold
  refine ⟨?_, fun op hop => ?_, fun op hop tx htx heq => ?_⟩
  · rw [hspent]
    refine List.nodup_append'.mpr ⟨hc.spent, hsafe.spends, fun op hop hnow => ?_⟩
    exact (hstep.spent op hnow).1 (hc.gone op hop)
  · rw [hspent, List.mem_append] at hop
    rcases hop with hop | hop
    · by_contra hsome
      obtain ⟨tx, htx, htype, heq⟩ := hstep.origin op (hc.gone op hop) hsome
      exact hnew op hop tx htx htype heq
    · exact (hstep.spent op hop).2
  · rw [hspent, List.mem_append] at hop
    rw [c.txs_concat, List.mem_append]
    have hcases : (c.store.state.utxo op ≠ none ∨ op ∈ c.spent) ∨
        ∃ tx ∈ block.appliedTxs, X.hashTransaction tx = op.tx := by
      by_cases hnone : c.store.state.utxo op = none
      · rcases hop with hsome | hop | hop
        · obtain ⟨tx, htx, -, heq⟩ := hstep.origin op hnone hsome
          exact .inr ⟨tx, htx, heq⟩
        · exact .inl (.inr hop)
        · exact absurd hnone (hstep.spent op hop).1
      · exact .inl (.inl hnone)
    rcases hcases with hold | ⟨tx', htx', heq'⟩
    · exact .inl (hc.origin op hold tx htx heq)
    · obtain rfl := hhash tx htx tx' (happlied tx' htx') (heq.trans heq'.symm)
      exact .inr htx'

end

/-- In every run of blocks that consume each outpoint once and whose coinbases are new, no outpoint is consumed twice
and none that is unspent is overwritten, and the total moves with the rewards and the fees. -/
theorem utxos_conserved_without_block_conflicts {blocks : List Block} {st : SledStore}
    (hhash : ∀ tx ∈ blocks.flatMap Block.transactions, ∀ tx' ∈ blocks.flatMap Block.transactions,
      X.hashTransaction tx = X.hashTransaction tx' → tx = tx')
    (hstart : ∀ op, st.state.utxo op ≠ none → ∀ tx ∈ blocks.flatMap Block.transactions, X.hashTransaction tx ≠ op.tx)
    (hrun : Along (Chain.offer X E) (fun c block => (∃ st', Accepts X E c.store block st') → UtxoSafe c block)
      ⟨st, []⟩ blocks) :
    (run (Chain.offer X E) ⟨st, []⟩ blocks).spent.Nodup ∧
      Along (Chain.offer X E) (fun c block => ∀ st', Accepts X E c.store block st' → UtxoStep X E c.store block st')
        ⟨st, []⟩ blocks := by
  let offered := blocks.flatMap Block.transactions
  have hmem : ∀ block ∈ blocks, ∀ tx ∈ block.transactions, tx ∈ offered := fun block hblock tx htx =>
    List.mem_flatMap.mpr ⟨block, hblock, htx⟩
  have hinit : UtxoInvariant X offered ⟨st, []⟩ := by
    refine ⟨List.nodup_nil, by simp [Chain.spent, Chain.txs, spendsOf], fun op hop tx htx heq => ?_⟩
    exact absurd heq (hstart op (hop.resolve_right (by simp [Chain.spent, Chain.txs, spendsOf])) tx htx)
  have hoffered : Along (Chain.offer X E) (fun _ block => ∀ tx ∈ block.transactions, tx ∈ offered) ⟨st, []⟩ blocks :=
    .of_mem _ hmem
  have hkeep : ∀ c block, ((∃ st', Accepts X E c.store block st') → UtxoSafe c block) ∧
      (∀ tx ∈ block.transactions, tx ∈ offered) → UtxoInvariant X offered c →
      UtxoInvariant X offered (c.offer X E block) := by
    rintro c block ⟨hsafe, hmem⟩ hc
    rcases c.offer_cases (X := X) (E := E) block with ⟨st', haccept, heq⟩ | heq
    · rw [heq]
      exact hc.step haccept (hsafe ⟨st', haccept⟩) hmem hhash
    · rwa [heq]
  refine ⟨((hrun.and hoffered).invariant hkeep hinit).spent, ((hrun.and hoffered).with_invariant hkeep hinit).mono ?_⟩
  rintro c block ⟨⟨hsafe, hmem⟩, hc⟩ st' haccept
  exact haccept.utxoStep (hsafe ⟨st', haccept⟩) hc hmem hhash

/-! ## A reward that is passed on, and one that is spent twice -/

/-- Transactions with memos of different lengths have different hashes. Fees are those of the default parameters. -/
def memoExternals : Externals :=
  { silentExternals.withFeeParams {} with hashTransaction := fun tx => BitVec.ofNat _ tx.memo.length }

def outputTo (recipient : Nat) : TransactionOutput := ⟨0, 0, .ofKeyId (BitVec.ofNat _ recipient), 0⟩

def rewardTx : Transaction := { tokenTx .coinbase .none with outputs := [outputTo 10] }

def noProof : ZkProof := ⟨[], [], [], none⟩

/-- The reward is passed on, with a fee of 10000. -/
def passOnTx (recipient : Nat) : Transaction :=
  { tokenTx .transfer .none with
    inputs := [⟨0, 0, 0, ⟨noProof, noProof, noProof⟩⟩]
    outputs := [outputTo recipient]
    fee := 10000
    memo := List.replicate recipient 0 }

def rewardBlocks : List Block := [blockAt 0 [], blockAt 1 [rewardTx], blockAt 2 [passOnTx 11]]

theorem utxos_conserved_for_a_reward_passed_on :
    let c := run (Chain.offer memoExternals defaultExecutor) ⟨.empty, []⟩ rewardBlocks
    c.blocks.length = 3 ∧ utxoTotal c.store.trees = 50000000 - 10000 ∧ c.spent.Nodup := by
  have hsafe : Along (Chain.offer memoExternals defaultExecutor) UtxoSafe ⟨.empty, []⟩ rewardBlocks := by decide +kernel
  refine ⟨by decide +kernel, by decide +kernel, (utxos_conserved_without_block_conflicts ?_ ?_ ?_).1⟩
  · decide +kernel
  · exact fun op hop => absurd rfl hop
  · exact hsafe.mono fun _ _ h _ => h

/-- Two transfers of one block consume the same outpoint. A coinbase of a later block that repeats an earlier one
overwrites its outpoint, which is still unspent. -/
theorem outpoint_spent_twice_and_overwritten :
    let spentTwice := run (Chain.offer memoExternals defaultExecutor) ⟨.empty, []⟩
      [blockAt 0 [], blockAt 1 [rewardTx], blockAt 2 [passOnTx 11, passOnTx 12]]
    let rewarded := run (Chain.offer memoExternals defaultExecutor) ⟨.empty, []⟩ [blockAt 0 [], blockAt 1 [rewardTx]]
    let repeated := run (Chain.offer memoExternals defaultExecutor) rewarded [blockAt 2 [rewardTx]]
    (spentTwice.blocks.length = 3 ∧ spentTwice.spent = [⟨0, 0⟩, ⟨0, 0⟩] ∧
      utxoTotal spentTwice.store.trees = 2 * (50000000 - 10000)) ∧
    (repeated.blocks.length = 3 ∧ (rewarded.store.state.utxo ⟨0, 0⟩).isSome ∧
      utxoTotal rewarded.store.trees = 50000000 ∧ utxoTotal repeated.store.trees = 50000000) := by
  decide +kernel

end SovereignNetwork.Execution
