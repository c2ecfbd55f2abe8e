import SovereignNetwork.Execution.Executor

/-!
# Block execution and sequential execution

The meaning of a block is its transactions one after the other, the coinbase last, over a map in which each read returns
the latest write. The executor stages the same writes over the committed trees.
-/

namespace SovereignNetwork.Execution

open Lib Mutator

variable {X : Externals} {E : BlockExecutor}

/-! ## Sequential execution -/

def applyInOrder (X : Externals) (E : BlockExecutor) (blockHeight : Nat) : List Transaction → (fees : Nat) → TxProg Nat
  | [], fees => pure fees
  | tx :: txs, fees => do
    let o ← applyTx X E tx blockHeight
    applyInOrder X E blockHeight txs (wrapU128 (fees + o.fee))

def nonCoinbaseTxs (block : Block) : List Transaction :=
  block.transactions.filter fun tx => tx.transactionType ≠ .coinbase

def coinbaseOf (block : Block) : Option Transaction :=
  block.transactions.find? fun tx => tx.transactionType = .coinbase

def applySequentially (X : Externals) (E : BlockExecutor) (block : Block) : TxProg Unit := do
  let fees ← applyInOrder X E block.header.height (nonCoinbaseTxs block) 0
  match coinbaseOf block with
  | some coinbase =>
    let _ ← applyCoinbaseWithFees X E coinbase block.header.height fees
    return ()
  | none => return ()

/-- The keys of the chain state: all that is stored but the index of the blocks. -/
def Key.IsState (k : Key) : Prop :=
  k.tree ≠ none ∧ k.tree ≠ some .blocksByHeight ∧ k.tree ≠ some .blocksByHash ∧ k.tree ≠ some .latestHeight

def ledgerEntry (m : AList Key.Val) (token : TokenId) (addr : Address) : Option Nat :=
  m.lookup (Key.tokenBalance token addr)

/-! ## The coinbase -/

theorem no_coinbase {txs : List Transaction} (h : (txs.filter fun tx => tx.transactionType = .coinbase).length = 0) :
    (txs.filter fun tx => tx.transactionType ≠ .coinbase) = txs ∧
      (txs.find? fun tx => tx.transactionType = .coinbase) = none := by
  have hnone : ∀ tx ∈ txs, tx.transactionType ≠ .coinbase := by
    simpa [List.filter_eq_nil_iff] using h
  refine ⟨List.filter_eq_self.mpr fun tx htx => by simpa using hnone tx htx, ?_⟩
  exact List.find?_eq_none.mpr fun tx htx => by simpa using hnone tx htx

theorem coinbase_split {block : Block} (h : checkCoinbasePosition block = .ok ()) :
    block.transactions.drop (nonCoinbaseStart block) = nonCoinbaseTxs block ∧ coinbaseTx block = coinbaseOf block := by
  by_cases hone : coinbaseCount block = 1
  · simp only [nonCoinbaseStart, coinbaseTx, nonCoinbaseTxs, coinbaseOf, hone, if_true]
    cases htxs : block.transactions with
    | nil => simp [coinbaseCount, htxs] at hone
    | cons tx txs =>
      have hfirst : tx.transactionType = .coinbase := by
        by_contra hne
        simp [checkCoinbasePosition, hone, htxs, hne, throw, throwThe, MonadExceptOf.throw] at h
      have hrest : (txs.filter fun tx => tx.transactionType = .coinbase).length = 0 := by
        simpa [coinbaseCount, htxs, hfirst] using hone
      have hfilter := (no_coinbase hrest).1
      rw [List.filter_cons_of_neg (by simp [hfirst]), hfilter, List.find?_cons_of_pos (by simp [hfirst])]
      exact ⟨rfl, rfl⟩
  · have hnone : coinbaseCount block = 0 := by
      by_contra hne
      have hmany : coinbaseCount block > 1 := by omega
      simp [checkCoinbasePosition, hmany, throw, throwThe, MonadExceptOf.throw, bind, Except.bind] at h
    obtain ⟨hfilter, hfind⟩ := no_coinbase hnone
    simp only [nonCoinbaseStart, coinbaseTx, nonCoinbaseTxs, coinbaseOf, hone, if_false, List.drop_zero, hfilter, hfind]
    exact ⟨trivial, trivial⟩

/-! ## The executor's loop without its checks -/

variable {s : AList Key.Val} {b b' : Batch Key.Val}

theorem stage_applyTxs_cons {blockHeight index : Nat} {tx : Transaction} {txs : List Transaction}
    {totals totals' : BlockTotals}
    (h : (applyTxs X E blockHeight (tx :: txs) index totals).stage sledView s b = .ok (totals', b')) :
    ∃ o b₁ totals₁, (validateTxStateless X E tx).stage sledView s b = .ok ((), b) ∧
      (validateTxStateful X tx).stage sledView s b = .ok ((), b) ∧
      (applyTx X E tx blockHeight).stage sledView s b = .ok (o, b₁) ∧
      totals₁.totalFees = wrapU128 (totals.totalFees + o.fee) ∧
      (applyTxs X E blockHeight txs (index + 1) totals₁).stage sledView s b₁ = .ok (totals', b') := by
  obtain ⟨accumulator, b₁, hacc, hchecks⟩ := Prog.stage_bind_eq_ok.mp h
  obtain rfl := (Prog.ReadOnly.ofExcept _).batch_eq hacc
  obtain ⟨⟨⟩, b₂, hstateless, hrest⟩ := Prog.stage_bind_eq_ok.mp hchecks
  replace hstateless := Prog.stage_mapError_eq_ok.mp hstateless
  obtain rfl := (readOnly_validateTxStateless X E tx).batch_eq hstateless
  obtain ⟨⟨⟩, b₃, hstateful, happly⟩ := Prog.stage_bind_eq_ok.mp hrest
  replace hstateful := Prog.stage_mapError_eq_ok.mp hstateful
  obtain rfl := (readOnly_validateTxStateful X tx).batch_eq hstateful
  obtain ⟨o, b₄, htx, htxs⟩ := Prog.stage_bind_eq_ok.mp happly
  exact ⟨o, b₄, _, hstateless, hstateful, Prog.stage_mapError_eq_ok.mp htx, rfl, htxs⟩

theorem stage_applyInOrder {blockHeight index : Nat} {txs : List Transaction} {totals totals' : BlockTotals}
    (h : (applyTxs X E blockHeight txs index totals).stage sledView s b = .ok (totals', b')) :
    (applyInOrder X E blockHeight txs totals.totalFees).stage sledView s b = .ok (totals'.totalFees, b') := by
  induction txs generalizing index totals b with
  | nil =>
    cases h
    rfl
  | cons tx txs ih =>
    obtain ⟨o, b₁, totals₁, -, -, happly, hfees, hrest⟩ := stage_applyTxs_cons h
    refine Prog.stage_bind_eq_ok.mpr ⟨o, b₁, happly, ?_⟩
    rw [← hfees]
    exact ih hrest

theorem stage_applyCoinbaseTx {blockHeight : Nat} {coinbase : Transaction} {totals totals' : BlockTotals}
    (h : (applyCoinbaseTx X E blockHeight coinbase totals).stage sledView s b = .ok (totals', b')) :
    (validateTxStateless X E coinbase).stage sledView s b = .ok ((), b) ∧
      ∃ o, (applyCoinbaseWithFees X E coinbase blockHeight totals.totalFees).stage sledView s b = .ok (o, b') := by
  obtain ⟨accumulator, b₁, hacc, hchecks⟩ := Prog.stage_bind_eq_ok.mp h
  obtain rfl := (Prog.ReadOnly.ofExcept _).batch_eq hacc
  obtain ⟨⟨⟩, b₂, hstateless, happly⟩ := Prog.stage_bind_eq_ok.mp hchecks
  replace hstateless := Prog.stage_mapError_eq_ok.mp hstateless
  obtain rfl := (readOnly_validateTxStateless X E coinbase).batch_eq hstateless
  obtain ⟨o, b₃, htx, hdone⟩ := Prog.stage_bind_eq_ok.mp happly
  cases hdone
  exact ⟨hstateless, o, Prog.stage_mapError_eq_ok.mp htx⟩

theorem stage_applySequentially {block : Block} (hposition : checkCoinbasePosition block = .ok ()) {totals : BlockTotals}
    (h : (applyTransactions X E block).stage sledView s b = .ok (totals, b')) :
    (applySequentially X E block).stage sledView s b = .ok ((), b') := by
  obtain ⟨htxs, hcoinbase⟩ := coinbase_split hposition
  obtain ⟨totals₁, b₁, hloop, h⟩ := Prog.stage_bind_eq_ok.mp h
  rw [htxs] at hloop
  refine Prog.stage_bind_eq_ok.mpr ⟨totals₁.totalFees, b₁, stage_applyInOrder hloop, ?_⟩
  rw [hcoinbase] at h
  cases hc : coinbaseOf block with
  | none =>
    rw [hc] at h
    cases h
    rfl
  | some coinbase =>
    rw [hc] at h
    obtain ⟨-, o, happly⟩ := stage_applyCoinbaseTx h
    exact Prog.stage_bind_eq_ok.mpr ⟨o, b', happly, rfl⟩

theorem latest_finishBlock {block : Block} {k : Key} (hk : k.IsState)
    (h : (finishBlock block).stage sledView s b = .ok ((), b')) : latest s b' k = latest s b k := by
  obtain ⟨-, hheight, hhash, hlatest⟩ := hk
  cases h
  rw [latest_insert_of_ne, latest_insert_of_ne, latest_insert_of_ne]
  · rintro rfl
    exact hheight rfl
  · rintro rfl
    exact hhash rfl
  · rintro rfl
    exact hlatest rfl

/-! ## Refinement -/

theorem applyBlock_eq_ok {st st' : SledStore} {block : Block} {o : ApplyOutcome}
    (h : applyBlock X E st block = .ok (o, st')) :
    ∃ totals b b', checkCoinbasePosition block = .ok () ∧
      (applyContents X E block).stage sledView st.trees ∅ = .ok (totals, b) ∧
      (finishBlock block).stage sledView st.trees b = .ok ((), b') ∧ st' = st.commitBlock b' := by
  obtain ⟨_, -, hresources⟩ := bind_eq_ok.mp h
  obtain ⟨_, -, hbegin⟩ := bind_eq_ok.mp hresources
  obtain ⟨⟨o₁, b'⟩, hinner, hcommit⟩ := bind_eq_ok.mp hbegin
  obtain ⟨⟨⟩, b₀, hposition, hcontents⟩ := Prog.stage_bind_eq_ok.mp hinner
  obtain rfl := (Prog.ReadOnly.ofExcept _).batch_eq hposition
  obtain ⟨totals, b, htxs, happend⟩ := Prog.stage_bind_eq_ok.mp hcontents
  obtain ⟨⟨⟩, b'', hfinish, hdone⟩ := Prog.stage_bind_eq_ok.mp happend
  cases hdone
  cases hcommit
  refine ⟨totals, b, b', ?_, htxs, hfinish, rfl⟩
  cases hc : checkCoinbasePosition block with
  | ok u => rfl
  | error e =>
    rw [hc] at hposition
    cases hposition

/-- A block after genesis whose transactions, one after the other, read no key that an earlier write of the block has
changed, is executed as if each read returned the latest write. -/
theorem block_execution_is_sequential {st st' : SledStore} {block : Block} {o : ApplyOutcome}
    (h : applyBlock X E st block = .ok (o, st')) (hheight : block.header.height ≠ 0)
    (hfresh : (applySequentially X E block).Fresh sledView st.trees st.trees) :
    ∃ m, (applySequentially X E block).exec st.trees = .ok ((), m) ∧
      ∀ k : Key, k.IsState → st'.trees.lookup k = m.lookup k := by
  obtain ⟨totals, b, b', hposition, htxs, hfinish, rfl⟩ := applyBlock_eq_ok h
  rw [applyContents, if_neg hheight] at htxs
  obtain ⟨m, hexec, hm⟩ := Prog.exec_of_stage (latest_empty _) hfresh (stage_applySequentially hposition htxs)
  refine ⟨m, hexec, fun k hk => ?_⟩
  rw [st.lookup_commitBlock b' hk.1, latest_finishBlock hk hfinish, hm]

/-! ## A transfer to oneself, and one to another address -/

/-- Surroundings that no token transfer asks for anything. -/
def silentExternals : Externals where
  hashTransaction _ := 0
  hashPair _ _ := 0
  keyIdOf _ := 0
  generateLibTokenId := 1
  generateCustomTokenId _ _ := 2
  deriveCbeTokenId := 3
  daoStateContractId := 4
  verifyTransaction _ := .ok false
  blockSize _ := 0
  calculateMinFee _ := 0
  decodeTokenCreation _ := .error "no payload"
  decodeContractDeployment _ := .error "no payload"
  decodeContractExecution _ := .error "no payload"
  serializeProposal _ := []
  deserializeProposal _ := .error "no proposal"
  serializeVote _ := []
  serializeExecution _ := []
  serializeLimits _ _ := []
  deserializeLimits _ := .error "no limits"
  serializeCall _ _ _ _ := []

def defaultExecutor : BlockExecutor := .withStore Address.ZERO

def tokenTx (type : TransactionType) (payload : TransactionPayload) : Transaction where
  version := 2
  chainId := 1
  transactionType := type
  inputs := []
  outputs := []
  fee := 0
  signature := ⟨[], .ofKeyId 0⟩
  memo := []
  payload := payload

/-- A block whose hash is its height plus one. -/
def blockAt (height : Nat) (txs : List Transaction) : Block where
  header := ⟨1, BitVec.ofNat _ height, 0, 0, height, 0, 0, 0, BitVec.ofNat _ (height + 1)⟩
  transactions := txs

/-- The store after the blocks that the executor accepts. -/
def storeAfter (X : Externals) (E : BlockExecutor) (blocks : List Block) : SledStore :=
  blocks.foldl (fun st block =>
    match applyBlock X E st block with
    | .ok (_, st') => st'
    | .error _ => st) .empty

def fundedStore : SledStore :=
  storeAfter silentExternals defaultExecutor
    [blockAt 0 [], blockAt 1 [tokenTx .tokenMint (.tokenMint ⟨7, 10, 100⟩)]]

def transferBlock (recipient : Address) : Block :=
  blockAt 2 [tokenTx .tokenTransfer (.tokenTransfer ⟨7, 10, recipient, 100, 0⟩)]

theorem block_execution_is_sequential_for_one_transfer :
    ∃ o st', applyBlock silentExternals defaultExecutor fundedStore (transferBlock 11) = .ok (o, st') ∧
      ∃ m, (applySequentially silentExternals defaultExecutor (transferBlock 11)).exec fundedStore.trees = .ok ((), m) ∧
        ∀ k : Key, k.IsState → st'.trees.lookup k = m.lookup k := by
  have haccept : (applyBlock silentExternals defaultExecutor fundedStore (transferBlock 11)).toOption.map
      (fun r => r.1.txCount) = some 1 := by decide +kernel
  obtain ⟨⟨o, st'⟩, hok, -⟩ := exists_ok_of_map_eq_some haccept
  exact ⟨o, st', hok, block_execution_is_sequential hok (by decide) (by decide +kernel)⟩

/-- The debit and the credit of a transfer to oneself both start from the committed balance, so the credit, which is
written last, adds the amount. -/
theorem self_transfer_doubles_balance :
    ∃ o st' m, applyBlock silentExternals defaultExecutor fundedStore (transferBlock 10) = .ok (o, st') ∧
      (applySequentially silentExternals defaultExecutor (transferBlock 10)).exec fundedStore.trees = .ok ((), m) ∧
      (Key.tokenBalance 7 10).IsState ∧ ledgerEntry st'.trees 7 10 = some 200 ∧ ledgerEntry m 7 10 = some 100 := by
  have haccept : (applyBlock silentExternals defaultExecutor fundedStore (transferBlock 10)).toOption.map
      (fun r => ledgerEntry r.2.trees 7 10) = some (some 200) := by decide +kernel
  have hplain : ((applySequentially silentExternals defaultExecutor (transferBlock 10)).exec fundedStore.trees).toOption.map
      (fun r => ledgerEntry r.2 7 10) = some (some 100) := by decide +kernel
  obtain ⟨⟨o, st'⟩, hok, hdouble⟩ := exists_ok_of_map_eq_some haccept
  obtain ⟨⟨⟨⟩, m⟩, hexec, hsingle⟩ := exists_ok_of_map_eq_some hplain
  exact ⟨o, st', m, hok, hexec, by simp [Key.IsState, Key.tree], hdouble, hsingle⟩

-- stale reads may also cancel: 10 receives, sends and receives
example :
    let mints := [10, 11, 12].map fun a => tokenTx .tokenMint (.tokenMint ⟨7, a, 100⟩)
    let st := storeAfter silentExternals defaultExecutor [blockAt 0 [], blockAt 1 mints]
    let block := blockAt 2 ([(11, 10, 5), (10, 13, 5), (12, 10, 3)].map fun t =>
      tokenTx .tokenTransfer (.tokenTransfer ⟨7, t.1, t.2.1, t.2.2, 0⟩))
    let sequential := applySequentially silentExternals defaultExecutor block
    ¬sequential.Fresh sledView st.trees st.trees ∧
      (applyBlock silentExternals defaultExecutor st block).toOption.map
          (fun r => [10, 11, 12, 13].map (ledgerEntry r.2.trees 7)) =
        some [some 103, some 95, some 97, some 5] ∧
      (sequential.exec st.trees).toOption.map (fun r => [10, 11, 12, 13].map (ledgerEntry r.2 7)) =
        some [some 103, some 95, some 97, some 5] := by
  decide +kernel

end SovereignNetwork.Execution
