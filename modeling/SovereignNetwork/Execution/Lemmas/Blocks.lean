import SovereignNetwork.Execution.Lemmas.Footprint

/-!
# What an accepted block stages
-/

namespace SovereignNetwork.Execution

open Lib Mutator

variable {X : Externals} {E : BlockExecutor} {s : AList Key.Val} {height : Nat}

structure TxStaged (X : Externals) (E : BlockExecutor) (s : AList Key.Val) (height : Nat) (tx : Transaction)
    (b : Batch Key.Val) (o : TxOutcome) (b' : Batch Key.Val) : Prop where
  stateless : (validateTxStateless X E tx).stage sledView s b = .ok ((), b)
  stateful : (validateTxStateful X tx).stage sledView s b = .ok ((), b)
  applied : (applyTx X E tx height).stage sledView s b = .ok (o, b')

/-- The transactions are applied one after the other, with the fees added up. -/
inductive TxsStaged (X : Externals) (E : BlockExecutor) (s : AList Key.Val) (height : Nat) :
    Nat → Batch Key.Val → List Transaction → Nat → Batch Key.Val → Prop
  | nil {fees b} : TxsStaged X E s height fees b [] fees b
  | cons {fees b tx o b₁ txs fees' b'} (head : TxStaged X E s height tx b o b₁)
      (tail : TxsStaged X E s height (wrapU128 (fees + o.fee)) b₁ txs fees' b') :
      TxsStaged X E s height fees b (tx :: txs) fees' b'

/-- The coinbase, if there is one, comes last. -/
def CoinbaseStaged (X : Externals) (E : BlockExecutor) (s : AList Key.Val) (height fees : Nat) :
    Option Transaction → Batch Key.Val → Batch Key.Val → Prop
  | none, b, b' => b' = b
  | some tx, b, b' => (validateTxStateless X E tx).stage sledView s b = .ok ((), b) ∧
      ∃ o, (applyCoinbaseWithFees X E tx height fees).stage sledView s b = .ok (o, b')

/-! ## The loop -/

section

variable {fees fees' : Nat} {b b' : Batch Key.Val} {txs : List Transaction}

theorem txsStaged_of_stage {index : Nat} {totals totals' : BlockTotals}
    (h : (applyTxs X E height txs index totals).stage sledView s b = .ok (totals', b')) :
    TxsStaged X E s height totals.totalFees b txs totals'.totalFees b' := by
  induction txs generalizing index totals b with
  | nil =>
    cases h
    exact .nil
  | cons tx txs ih =>
    obtain ⟨o, b₁, totals₁, hstateless, hstateful, happly, hfees, hrest⟩ := stage_applyTxs_cons h
    exact .cons ⟨hstateless, hstateful, happly⟩ (hfees ▸ ih hrest)

/-- The rule for the loop: `I` holds of the transactions so far, their fees and the batch. -/
theorem TxsStaged.invariant {I : List Transaction → Nat → Batch Key.Val → Prop} {all done : List Transaction}
    (h : TxsStaged X E s height fees b txs fees' b') (hall : done ++ txs = all)
    (hstep : ∀ done tx rest fees b o b', done ++ tx :: rest = all → TxStaged X E s height tx b o b' →
      I done fees b → I (done ++ [tx]) (wrapU128 (fees + o.fee)) b')
    (h₀ : I done fees b) : I all fees' b' := by
  induction h generalizing done with
  | nil =>
    rw [List.append_nil] at hall
    exact hall ▸ h₀
  | cons head tail ih =>
    refine ih ?_ (hstep _ _ _ _ _ _ _ hall head h₀)
    rw [List.append_assoc, List.singleton_append, hall]

theorem TxStaged.handler {tx : Transaction} {o : TxOutcome} (h : TxStaged X E s height tx b o b') (result : TxOutcome)
    (p : TxProg Unit) (htx : applyTx X E tx height = outcome result p) : p.stage sledView s b = .ok ((), b') := by
  have happlied := h.applied
  rw [htx] at happlied
  obtain ⟨⟨⟩, b₁, hp, hdone⟩ := Prog.stage_bind_eq_ok.mp happlied
  cases hdone
  exact hp

theorem TxStaged.lookup_eq {tx : Transaction} {o : TxOutcome} (h : TxStaged X E s height tx b o b') {k : Key}
    (hk : k.tree ∉ tx.transactionType.trees) : b'.lookup k = b.lookup k :=
  writesIn_applyTx.lookup_eq h.applied hk

theorem TxStaged.mem {tx : Transaction} {o : TxOutcome} (h : TxStaged X E s height tx b o b') {k : Key} (hk : k ∈ b) :
    k ∈ b' :=
  Prog.mem_of_stage h.applied hk

theorem TxsStaged.exists_staged (h : TxsStaged X E s height fees b txs fees' b') {tx : Transaction} (htx : tx ∈ txs) :
    ∃ b₁ o b₂, TxStaged X E s height tx b₁ o b₂ ∧ ∀ k ∈ b₂, k ∈ b' := by
  have hmem : ∀ {fees b txs fees' b'}, TxsStaged X E s height fees b txs fees' b' → ∀ k ∈ b, k ∈ b' := by
    intro fees b txs fees' b' h
    induction h with
    | nil => exact fun k hk => hk
    | cons head tail ih => exact fun k hk => ih k (head.mem hk)
  induction h with
  | nil => cases htx
  | cons head tail ih =>
    rcases List.mem_cons.mp htx with rfl | htx
    · exact ⟨_, _, _, head, hmem tail⟩
    · exact ih htx

theorem CoinbaseStaged.lookup_eq {coinbase : Option Transaction} (h : CoinbaseStaged X E s height fees coinbase b b')
    {k : Key} (hk : k.tree ∉ utxoTrees) : b'.lookup k = b.lookup k := by
  cases coinbase with
  | none => rw [h]
  | some tx =>
    obtain ⟨-, o, happly⟩ := h
    unfold applyCoinbaseWithFees at happly
    split at happly
    · cases happly
    · exact writesIn_applyCoinbase.lookup_eq happly hk

end

/-! ## The block -/

theorem applyBlock_staged {st st' : SledStore} {block : Block} {o : ApplyOutcome}
    (h : applyBlock X E st block = .ok (o, st')) (hheight : block.header.height ≠ 0) :
    ∃ fees b₁ b₂, TxsStaged X E st.trees block.header.height 0 ∅ (nonCoinbaseTxs block) fees b₁ ∧
      CoinbaseStaged X E st.trees block.header.height fees (coinbaseOf block) b₁ b₂ ∧
      ∀ k : Key, k.IsState → st'.trees.lookup k = staged st.trees b₂ k := by
  obtain ⟨totals, b, b', hposition, htxs, hfinish, rfl⟩ := applyBlock_eq_ok h
  rw [applyContents, if_neg hheight] at htxs
  obtain ⟨hloop, hcoinbase⟩ := coinbase_split hposition
  obtain ⟨totals₁, b₁, htxs, hlast⟩ := Prog.stage_bind_eq_ok.mp htxs
  rw [hloop] at htxs
  rw [hcoinbase] at hlast
  refine ⟨totals₁.totalFees, b₁, b, txsStaged_of_stage htxs, ?_, fun k hk => ?_⟩
  · cases hc : coinbaseOf block with
    | none =>
      rw [hc] at hlast
      cases hlast
      rfl
    | some coinbase =>
      rw [hc] at hlast
      exact stage_applyCoinbaseTx hlast
  · rw [st.lookup_commitBlock b' hk.1, latest_finishBlock hk hfinish, staged]

theorem applyBlock_genesis {st st' : SledStore} {block : Block} {o : ApplyOutcome}
    (h : applyBlock X E st block = .ok (o, st')) (hheight : block.header.height = 0) {k : Key} (hk : k.IsState)
    (hecon : k ≠ .cbeEconomicState) (hcbe : k ≠ .tokenBalance X.deriveCbeTokenId E.feeSinkAddress) :
    st'.trees.lookup k = st.trees.lookup k := by
  obtain ⟨totals, b, b', hposition, hgenesis, hfinish, rfl⟩ := applyBlock_eq_ok h
  rw [applyContents, if_pos hheight] at hgenesis
  have hwrites : (applyGenesis X E).Ensures sledView st.trees
      (fun k _ => k = .cbeEconomicState ∨ k = .tokenBalance X.deriveCbeTokenId E.feeSinkAddress) fun _ => True := by
    simp [applyGenesis]
  rw [st.lookup_commitBlock b' hk.1, latest_finishBlock hk hfinish, latest,
    hwrites.lookup_eq hgenesis fun _ hwrite => hwrite.elim hecon hcbe]
  rfl

end SovereignNetwork.Execution
