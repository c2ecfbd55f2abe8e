import SovereignNetwork.Execution.CurveSteps
import SovereignNetwork.Execution.Lemmas.Handlers

/-!
# Replayed transactions

Transfers, stakes and curve orders carry a nonce, which their application counts on.
-/

namespace SovereignNetwork.Execution

open Lib Mutator

variable {X : Externals} {E : BlockExecutor}

def replayProtected : List TransactionType :=
  [.tokenTransfer, .daoStake, .daoUnstake, .bondingCurveBuy, .bondingCurveSell]

def counterKey (X : Externals) (tx : Transaction) : Option Key :=
  match tx.transactionType with
  | .tokenTransfer => tx.tokenTransferData.map fun data => .tokenNonce (storageToken X data.tokenId) data.fromAddr
  | .daoStake => tx.daoStakeData.map fun data => .tokenNonce (canonicalSovTokenId X) data.staker
  | .daoUnstake => tx.daoUnstakeData.map fun data => .tokenNonce (canonicalSovTokenId X) data.staker
  | .bondingCurveBuy | .bondingCurveSell =>
    (decodeCanonicalBondingCurveTx tx.memo).toOption.map fun curveTx => .cbeAccount curveTx.order.sender
  | _ => none

def txNonce (tx : Transaction) : Option Nat :=
  match tx.transactionType with
  | .tokenTransfer => tx.tokenTransferData.map (·.nonce)
  | .daoStake => tx.daoStakeData.map (·.nonce)
  | .daoUnstake => tx.daoUnstakeData.map (·.nonce)
  | .bondingCurveBuy | .bondingCurveSell =>
    (decodeCanonicalBondingCurveTx tx.memo).toOption.map fun curveTx => curveTx.order.nonce
  | _ => none

def counter (σ : ChainState) : Key → Nat
  | .tokenNonce t a => σ.nonce t a
  | .cbeAccount a => (σ.account a).nextNonce
  | _ => 0

def Key.IsCounter (k : Key) : Prop := k.tree = some .tokenNonces ∨ k.tree = some .cbeAccounts

theorem counter_congr {σ τ : ChainState} {k : Key} (h : σ k = τ k) : counter σ k = counter τ k := by
  cases k with
  | tokenNonce t a => rw [counter, counter, ChainState.nonce, ChainState.nonce, h]
  | cbeAccount a => rw [counter, counter, ChainState.account, ChainState.account, h]
  | _ => rfl

variable {s : AList Key.Val} {height : Nat} {tx : Transaction} {b b' : Batch Key.Val} {o : TxOutcome}

theorem counter_staged_congr {k : Key} (h : b'.lookup k = b.lookup k) :
    counter (staged s b') k = counter (staged s b) k := by
  refine counter_congr ?_
  rw [staged, staged, latest, latest, h]

/-- One counter is moved on from its committed value, and the others are left alone. -/
structure Bumps (s : AList Key.Val) (b : Batch Key.Val) (k : Key) (b' : Batch Key.Val) : Prop where
  moved : counter (staged s b') k = counter (committed s) k + 1
  others : ∀ k' : Key, k'.IsCounter → k' ≠ k → b'.lookup k' = b.lookup k'

theorem Key.IsCounter.ne_tokenBalance {k : Key} (hk : k.IsCounter) (t : TokenId) (a : Address) : k ≠ .tokenBalance t a := by
  rintro rfl
  simp [Key.IsCounter, Key.tree] at hk

theorem bumps_bumpNonce {b₁ b₂ : Batch Key.Val} {t : TokenId} {a : Address} (hroom : (committed s).nonce t a + 1 < 2 ^ 64)
    (h₁ : ∀ k : Key, k.IsCounter → b₁.lookup k = b.lookup k)
    (h₂ : ∀ k : Key, k.IsCounter → b₂.lookup k = (bumpNonce s b₁ t a).lookup k) :
    Bumps s b (.tokenNonce t a) b₂ := by
  have hcounter : Key.IsCounter (.tokenNonce t a) := by simp [Key.IsCounter, Key.tree]
  refine ⟨?_, fun k hk hne => ?_⟩
  · rw [counter_staged_congr (h₂ _ hcounter), bumpNonce]
    show ChainState.nonce _ t a = (committed s).nonce t a + 1
    rw [ChainState.nonce, staged_insert_self]
    simp only [stored_getD]
    exact Nat.mod_eq_of_lt hroom
  · rw [h₂ k hk, bumpNonce, AList.lookup_insert_ne hne, h₁ k hk]

/-! ## The transactions -/

theorem TxStaged.transfer_counter (h : TxStaged X E s height tx b o b') (htype : tx.transactionType = .tokenTransfer)
    (hroom : ∀ k ∈ counterKey X tx, counter (committed s) k + 1 < 2 ^ 64) :
    ∃ k, counterKey X tx = some k ∧ Bumps s b k b' ∧ txNonce tx = some (counter (committed s) k) := by
  have hp := h.handler .tokenTransfer (applyTokenTransferTx X E tx) (by simp [applyTx, applyTransaction, htype])
  obtain ⟨data, hdata, -, b₁, b₂, b₃, hdebit, hcredit, hfee, rfl⟩ := stage_applyTokenTransferTx hp
  have hkey : counterKey X tx = some (.tokenNonce (storageToken X data.tokenId) data.fromAddr) := by
    simp [counterKey, htype, hdata]
  have hnonce : data.nonce = (committed s).nonce (storageToken X data.tokenId) data.fromAddr := by
    have hstateful := h.stateful
    simpa [validateTxStateful, requireNonce, htype, hdata] using hstateful
  refine ⟨_, hkey, bumps_bumpNonce (hroom _ hkey) (fun k hk => ?_) fun _ _ => rfl, ?_⟩
  · obtain ⟨-, rfl⟩ := stage_debitToken_eq_ok.mp hdebit
    obtain ⟨-, rfl⟩ := stage_creditToken_eq_ok.mp hcredit
    obtain ⟨-, rfl⟩ := stage_creditToken_eq_ok.mp hfee
    rw [lookup_writeBalance (hk.ne_tokenBalance _ _), lookup_writeBalance (hk.ne_tokenBalance _ _),
      lookup_writeBalance (hk.ne_tokenBalance _ _)]
  · simp [txNonce, htype, hdata, hnonce, counter]

theorem TxStaged.stake_counter (h : TxStaged X E s height tx b o b') (htype : tx.transactionType = .daoStake)
    (hroom : ∀ k ∈ counterKey X tx, counter (committed s) k + 1 < 2 ^ 64) :
    ∃ k, counterKey X tx = some k ∧ Bumps s b k b' := by
  have hp := h.handler .legacySystem (applyDaoStake X tx height) (by simp [applyTx, applyTransaction, htype])
  obtain ⟨data, t, b₁, hdata, -, -, htransfer, hcredit⟩ := stage_applyDaoStake hp
  have hkey : counterKey X tx = some (.tokenNonce (canonicalSovTokenId X) data.staker) := by
    simp [counterKey, htype, hdata]
  have hmoved : ∀ k : Key, k.IsCounter → b₁.lookup k = b.lookup k := fun k hk =>
    writesIn_transferToken.lookup_eq htransfer (by rcases hk with hk | hk <;> simp [hk])
  refine ⟨_, hkey, bumps_bumpNonce (hroom _ hkey) hmoved fun k hk => ?_⟩
  · obtain ⟨-, rfl⟩ := stage_creditToken_eq_ok.mp hcredit
    rw [lookup_writeBalance (hk.ne_tokenBalance _ _), AList.lookup_insert_ne]
    rintro rfl
    simp [Key.IsCounter, Key.tree] at hk

theorem TxStaged.unstake_counter (h : TxStaged X E s height tx b o b') (htype : tx.transactionType = .daoUnstake)
    (hroom : ∀ k ∈ counterKey X tx, counter (committed s) k + 1 < 2 ^ 64) :
    ∃ k, counterKey X tx = some k ∧ Bumps s b k b' ∧ txNonce tx = some (counter (committed s) k) := by
  have hp := h.handler .legacySystem (applyDaoUnstake X tx height) (by simp [applyTx, applyTransaction, htype])
  obtain ⟨data, record, b₁, b₂, hdata, -, -, hnonce, htransfer, hdebit, rfl⟩ := stage_applyDaoUnstake hp
  have hkey : counterKey X tx = some (.tokenNonce (canonicalSovTokenId X) data.staker) := by
    simp [counterKey, htype, hdata]
  refine ⟨_, hkey, bumps_bumpNonce (hroom _ hkey) (fun k hk => ?_) fun _ _ => rfl, ?_⟩
  · have htransferred := writesIn_transferToken.lookup_eq htransfer (k := k) (by rcases hk with hk | hk <;> simp [hk])
    have hwelfare : b₂.lookup k = b₁.lookup k := by
      unfold debitWelfare at hdebit
      split at hdebit
      · obtain ⟨-, rfl⟩ := stage_debitToken_eq_ok.mp hdebit
        exact lookup_writeBalance (hk.ne_tokenBalance _ _) _ _
      · cases hdebit
        rfl
    rw [AList.lookup_insert_ne, hwelfare, htransferred]
    rintro rfl
    simp [Key.IsCounter, Key.tree] at hk
  · simp [txNonce, htype, hdata, hnonce, counter]

theorem TxStaged.order_counter (h : TxStaged X E s height tx b o b')
    (htype : tx.transactionType = .bondingCurveBuy ∨ tx.transactionType = .bondingCurveSell) :
    ∃ k, counterKey X tx = some k ∧ Bumps s b k b' ∧ txNonce tx = some (counter (committed s) k) := by
  obtain ⟨curveTx, hdecode, haccepted, hlookup⟩ := h.order htype
  have hkey : counterKey X tx = some (.cbeAccount curveTx.order.sender) := by
    rcases htype with htype | htype <;> simp [counterKey, htype, hdecode, Except.toOption]
  have hnonce : txNonce tx = some curveTx.order.nonce := by
    rcases htype with htype | htype <;> simp [txNonce, htype, hdecode, Except.toOption]
  refine ⟨_, hkey, ⟨?_, fun k hk hne => ?_⟩, ?_⟩
  · have hafter := counter_staged_congr (s := s) (hlookup (.cbeAccount curveTx.order.sender) (by simp) (by simp))
    rw [hafter]
    show (ChainState.account _ curveTx.order.sender).nextNonce = ((committed s).account curveTx.order.sender).nextNonce + 1
    rw [ChainState.account, staged_insert_self, ← haccepted.nonce]
    rfl
  · rw [hlookup k ?_ hk.ne_tokenBalance, AList.lookup_insert_ne hne]
    rintro rfl
    simp [Key.IsCounter, Key.tree] at hk
  · rw [hnonce, haccepted.nonce]
    rfl

/-- The transaction's counter can move on, and a stake carries the counter's value. -/
structure NonceReady (X : Externals) (σ : ChainState) (tx : Transaction) : Prop where
  room : ∀ k ∈ counterKey X tx, counter σ k + 1 < 2 ^ 64
  stake : tx.transactionType = .daoStake → ∀ k ∈ counterKey X tx, txNonce tx = some (counter σ k)

instance (σ : ChainState) (tx : Transaction) : Decidable (NonceReady X σ tx) :=
  decidable_of_iff ((∀ k ∈ counterKey X tx, counter σ k + 1 < 2 ^ 64) ∧
      (tx.transactionType = .daoStake → ∀ k ∈ counterKey X tx, txNonce tx = some (counter σ k)))
    ⟨fun h => ⟨h.1, h.2⟩, fun h => ⟨h.1, h.2⟩⟩

theorem TxStaged.counter (h : TxStaged X E s height tx b o b') (htype : tx.transactionType ∈ replayProtected)
    (hready : NonceReady X (committed s) tx) :
    ∃ k, counterKey X tx = some k ∧ Bumps s b k b' ∧ txNonce tx = some (counter (committed s) k) := by
  simp only [replayProtected, List.mem_cons, List.not_mem_nil, or_false] at htype
  rcases htype with htype | htype | htype | htype
  · exact h.transfer_counter htype hready.room
  · obtain ⟨k, hkey, hbumps⟩ := h.stake_counter htype hready.room
    exact ⟨k, hkey, hbumps, hready.stake htype k hkey⟩
  · exact h.unstake_counter htype hready.room
  · exact h.order_counter htype

theorem isCounter_of_counterKey {k : Key} (h : counterKey X tx = some k) : k.IsCounter := by
  unfold counterKey at h
  split at h
  all_goals first
    | obtain ⟨_, -, rfl⟩ := Option.map_eq_some_iff.mp h
      simp [Key.IsCounter, Key.tree]
    | cases h

theorem protected_of_counter {type : TransactionType} {k : Key} (hk : k.IsCounter) (h : k.tree ∈ type.trees) :
    type ∈ replayProtected := by
  rcases hk with hk | hk <;> rw [hk] at h <;> cases type <;> first | decide | exact absurd h (by decide)

/-! ## Blocks -/

/-- The transaction was applied on top of `σ`: it has moved its counter on. -/
def Counted (X : Externals) (σ τ : ChainState) (tx : Transaction) : Prop :=
  ∃ k, counterKey X tx = some k ∧ txNonce tx = some (counter σ k) ∧ counter τ k = counter σ k + 1

theorem TxsStaged.counted {fees fees' : Nat} {txs : List Transaction} (h : TxsStaged X E s height fees ∅ txs fees' b')
    (hready : ∀ tx ∈ txs, NonceReady X (committed s) tx) :
    (∀ k : Key, k.IsCounter → Execution.counter (committed s) k ≤ Execution.counter (staged s b') k) ∧
      ∀ tx ∈ txs, tx.transactionType ∈ replayProtected → Counted X (committed s) (staged s b') tx := by
  refine h.invariant (I := fun done _ b =>
    (∀ k : Key, k.IsCounter → Execution.counter (committed s) k ≤ Execution.counter (staged s b) k) ∧
      ∀ tx ∈ done, tx.transactionType ∈ replayProtected → Counted X (committed s) (staged s b) tx)
    (List.nil_append _) ?_ ⟨fun _ _ => le_rfl, by simp⟩
  rintro done tx rest fees b o b' hall htx ⟨hmono, hdone⟩
  by_cases htype : tx.transactionType ∈ replayProtected
  · obtain ⟨k, hkey, hbumps, hnonce⟩ := htx.counter htype (hready tx (by simp [← hall]))
    refine ⟨fun k' hk' => ?_, fun tx' htx' htype' => ?_⟩
    · by_cases hne : k' = k
      · rw [hne, hbumps.moved]
        exact Nat.le_succ _
      · rw [counter_staged_congr (hbumps.others k' hk' hne)]
        exact hmono k' hk'
    · rcases List.mem_append.mp htx' with htx' | htx'
      · obtain ⟨k', hkey', hnonce', hmoved⟩ := hdone tx' htx' htype'
        refine ⟨k', hkey', hnonce', ?_⟩
        by_cases hne : k' = k
        · rw [hne]
          exact hbumps.moved
        · rwa [counter_staged_congr (hbumps.others k' (isCounter_of_counterKey hkey') hne)]
      · rw [List.mem_singleton.mp htx']
        exact ⟨k, hkey, hnonce, hbumps.moved⟩
  · have hframe : ∀ k : Key, k.IsCounter → b'.lookup k = b.lookup k := fun k hk =>
      htx.lookup_eq fun hmem => htype (protected_of_counter hk hmem)
    refine ⟨fun k hk => ?_, fun tx' htx' htype' => ?_⟩
    · rw [counter_staged_congr (hframe k hk)]
      exact hmono k hk
    · rcases List.mem_append.mp htx' with htx' | htx'
      · obtain ⟨k', hkey', hnonce', hmoved⟩ := hdone tx' htx' htype'
        exact ⟨k', hkey', hnonce', by rwa [counter_staged_congr (hframe k' (isCounter_of_counterKey hkey'))]⟩
      · rw [List.mem_singleton.mp htx'] at htype'
        exact absurd htype' htype

theorem Accepts.counted {st st' : SledStore} {block : Block} (h : Accepts X E st block st')
    (hready : ∀ tx ∈ block.transactions, NonceReady X st.state tx) :
    (∀ k : Key, k.IsCounter → Execution.counter st.state k ≤ Execution.counter st'.state k) ∧
      ∀ tx ∈ block.appliedTxs, tx.transactionType ∈ replayProtected → Counted X st.state st'.state tx := by
  obtain ⟨o, h⟩ := h
  have hisState : ∀ k : Key, k.IsCounter → k.IsState := by
    intro k hk
    rcases hk with hk | hk <;> simp [Key.IsState, hk]
  by_cases hheight : block.header.height = 0
  · refine ⟨fun k hk => ?_, by simp [Block.appliedTxs, hheight]⟩
    refine (counter_congr ?_).ge
    refine applyBlock_genesis h hheight (hisState k hk) ?_ ?_ <;>
      · rintro rfl
        rcases hk with hk | hk <;> cases hk
  obtain ⟨fees, b₁, b₂, htxs, hcoinbase, hstate⟩ := applyBlock_staged h hheight
  have hsub : ∀ tx ∈ nonCoinbaseTxs block, tx ∈ block.transactions := fun tx htx => (List.mem_filter.mp htx).1
  obtain ⟨hmono, hcounted⟩ := htxs.counted fun tx htx => hready tx (hsub tx htx)
  have hafter : ∀ k : Key, k.IsCounter → Execution.counter st'.state k = Execution.counter (staged st.trees b₁) k := by
    intro k hk
    refine (counter_congr (hstate k (hisState k hk))).trans (counter_staged_congr ?_)
    exact hcoinbase.lookup_eq (by rcases hk with hk | hk <;> simp [hk, utxoTrees, merkleTrees])
  refine ⟨fun k hk => (hmono k hk).trans (hafter k hk).ge, fun tx htx htype => ?_⟩
  have hloop : tx ∈ nonCoinbaseTxs block := by
    rw [Block.appliedTxs, if_neg hheight] at htx
    refine List.mem_filter.mpr ⟨htx, ?_⟩
    have hne : tx.transactionType ≠ .coinbase := fun hc => by simp [hc, replayProtected] at htype
    simpa using hne
  obtain ⟨k, hkey, hnonce, hmoved⟩ := hcounted tx hloop htype
  exact ⟨k, hkey, hnonce, (hafter k (isCounter_of_counterKey hkey)).trans hmoved⟩

/-! ## Chains -/

/-- Every transaction of the block is ready, and no two of them use the same counter. -/
structure ReplayGuarded (X : Externals) (c : Chain) (block : Block) : Prop where
  ready : ∀ tx ∈ block.transactions, NonceReady X c.store.state tx
  distinct : (block.transactions.filterMap (counterKey X)).Nodup

/-- The counters are past the nonces of the applied transactions, none of which was applied twice. -/
structure ReplaySafe (X : Externals) (c : Chain) : Prop where
  spent : ∀ tx ∈ c.txs, tx.transactionType ∈ replayProtected →
    ∃ k n, counterKey X tx = some k ∧ txNonce tx = some n ∧ n < counter c.store.state k
  once : ∀ tx, tx.transactionType ∈ replayProtected → c.txs.count tx ≤ 1

theorem count_le_one_of_filterMap_nodup {α β : Type} [DecidableEq α] {f : α → Option β} {l : List α} {a : α} {k : β}
    (hnodup : (l.filterMap f).Nodup) (ha : f a = some k) : l.count a ≤ 1 := by
  by_contra hcount
  have hsub : [a, a].Sublist l := List.replicate_sublist_iff.mpr (Nat.lt_of_not_le hcount)
  have hkeys := (hsub.filterMap f).nodup hnodup
  simp [ha] at hkeys

theorem Accepts.replaySafe {c : Chain} {block : Block} {st : SledStore} (h : Accepts X E c.store block st)
    (hguard : ReplayGuarded X c block) (hc : ReplaySafe X c) : ReplaySafe X ⟨st, c.blocks ++ [block]⟩ := by
  obtain ⟨hmono, hcounted⟩ := h.counted hguard.ready
  have htxs := c.txs_concat st block
  refine ⟨fun tx htx htype => ?_, fun tx htype => ?_⟩
  · rw [htxs, List.mem_append] at htx
    rcases htx with htx | htx
    · obtain ⟨k, n, hkey, hnonce, hlt⟩ := hc.spent tx htx htype
      exact ⟨k, n, hkey, hnonce, hlt.trans_le (hmono k (isCounter_of_counterKey hkey))⟩
    · obtain ⟨k, hkey, hnonce, hmoved⟩ := hcounted tx htx htype
      exact ⟨k, _, hkey, hnonce, by rw [hmoved]; exact Nat.lt_succ_self _⟩
  · rw [htxs, List.count_append]
    by_cases hnew : tx ∈ block.appliedTxs
    · obtain ⟨k, hkey, hnonce, -⟩ := hcounted tx hnew htype
      -- An earlier application would have moved the counter past the nonce.
      have hold : tx ∉ c.txs := by
        intro hold
        obtain ⟨k', n, hkey', hnonce', hlt⟩ := hc.spent tx hold htype
        rw [hkey] at hkey'
        rw [hnonce] at hnonce'
        cases hkey'
        cases hnonce'
        exact Nat.lt_irrefl _ hlt
      have hblock := count_le_one_of_filterMap_nodup hguard.distinct hkey
      have happlied : block.appliedTxs.count tx ≤ block.transactions.count tx := block.appliedTxs_sublist.count_le tx
      rw [List.count_eq_zero.mpr hold]
      omega
    · rw [List.count_eq_zero.mpr hnew]
      exact hc.once tx htype

/-- In a chain whose blocks use each counter once, and whose stakes carry the value of theirs, no transfer, stake, unstake
or order is applied twice. -/
theorem protected_transactions_apply_once {st : SledStore} {blocks : List Block}
    (hrun : Along (Chain.offer X E) (fun c block => (∃ st', Accepts X E c.store block st') → ReplayGuarded X c block)
      ⟨st, []⟩ blocks) (tx : Transaction) (htype : tx.transactionType ∈ replayProtected) :
    (run (Chain.offer X E) ⟨st, []⟩ blocks).txs.count tx ≤ 1 := by
  refine (Chain.invariant (I := ReplaySafe X) (fun _ _ _ => Accepts.replaySafe) hrun ?_).once tx htype
  exact ⟨by simp [Chain.txs], by simp [Chain.txs]⟩

def payTx (nonce : Nat) : Transaction :=
  tokenTx .tokenTransfer (.tokenTransfer ⟨canonicalSovTokenId silentExternals, 10, 11, 100, nonce⟩)

/-- The first payment is offered again, which is refused, before the second and a stake. -/
def replayBlocks : List Block :=
  [blockAt 2 [payTx 0], blockAt 3 [payTx 0], blockAt 3 [payTx 1], blockAt 4 [stakeTx 100 2]]

theorem replayed_payment_applies_once :
    let c := run (Chain.offer silentExternals defaultExecutor) ⟨holderStore, []⟩ replayBlocks
    c.txs = [payTx 0, payTx 1, stakeTx 100 2] ∧ c.txs.count (payTx 0) ≤ 1 := by
  have hrun : Along (Chain.offer silentExternals defaultExecutor)
      (fun c block => (∃ st', Accepts silentExternals defaultExecutor c.store block st') →
        ReplayGuarded silentExternals c block) ⟨holderStore, []⟩ replayBlocks :=
    ⟨fun _ => ⟨by decide +kernel, by decide⟩, fun _ => ⟨by decide +kernel, by decide⟩,
      fun _ => ⟨by decide +kernel, by decide⟩, fun _ => ⟨by decide +kernel, by decide⟩, trivial⟩
  exact ⟨by decide +kernel, protected_transactions_apply_once hrun (payTx 0) (by decide)⟩

/-- The same signed stake, in two blocks, moves its amount twice. -/
theorem stake_replays_across_blocks :
    let c := run (Chain.offer silentExternals defaultExecutor) ⟨holderStore, []⟩
      [blockAt 2 [stakeTx 100 0], blockAt 3 [stakeTx 100 0]]
    c.txs = [stakeTx 100 0, stakeTx 100 0] ∧
      c.store.state.balance (canonicalSovTokenId silentExternals) daoHealthcareKeyId = 200 := by
  decide +kernel

end SovereignNetwork.Execution
