import SovereignNetwork.Execution.Chain
import SovereignNetwork.Execution.Lemmas.Handlers

/-!
# Three copies of the SOV supply

The balances of SOV are kept in the ledger and in the stored contract, and their sum in the contract and in a record of
its own. A mint writes all three, a transfer the ledger only.
-/

namespace SovereignNetwork.Execution

open Lib Mutator

variable {X : Externals} {E : BlockExecutor} {s : AList Key.Val} {b b' : Batch Key.Val} {tx : Transaction} {height : Nat}
  {o : TxOutcome}

def sovMintOf (X : Externals) (tx : Transaction) : Option (Address × Nat) :=
  match tx.transactionType with
  | .tokenMint => tx.tokenMintData.bind fun data =>
    if isCanonicalSovToken X data.tokenId then some (data.toAddr, data.amount) else none
  | .walletRegistration => tx.walletData.bind fun data =>
    if data.initialBalance > 0 then some (data.walletId, data.initialBalance) else none
  | _ => none

def Transaction.MintsSov (X : Externals) (tx : Transaction) : Prop :=
  tx.transactionType = .walletRegistration ∨
    tx.transactionType = .tokenMint ∧ ∀ data ∈ tx.tokenMintData, isCanonicalSovToken X data.tokenId

/-- The contract, the record and the ledger agree. -/
structure SovAgrees (X : Externals) (st : SledStore) : Prop where
  supply : st.state.supply (canonicalSovTokenId X) = some (tokenTotal st.trees (canonicalSovTokenId X))
  contract : ∃ contract, st.state.contract (canonicalSovTokenId X) = some contract ∧
    contract.tokenId = canonicalSovTokenId X ∧
    contract.totalSupply = tokenTotal st.trees (canonicalSovTokenId X) ∧
    ∀ a, contract.balanceOf (.ofKeyId a) = st.state.balance (canonicalSovTokenId X) a

/-! ## What a mint stages -/

/-- The contract after a mint on top of the given supply and balance. -/
def TokenContract.afterMint (contract : TokenContract) (supply balance : Nat) (recipient : Address) (amount : Nat) :
    TokenContract :=
  { contract with totalSupply := supply + amount }.setBalance (.ofKeyId recipient) (balance + amount)

/-- The entries of SOV: its record, its contract and its balances. -/
def Key.OfSov (X : Externals) : Key → Prop
  | .tokenSupply t => t = canonicalSovTokenId X
  | .tokenContract t => t = canonicalSovTokenId X
  | .tokenBalance t _ => t = canonicalSovTokenId X
  | _ => False

/-- The balances of SOV that the batch holds are the recipient's. -/
def OnlyRecipient (X : Externals) (recipient : Address) (b : Batch Key.Val) : Prop :=
  ∀ a, a ≠ recipient → b.lookup (.tokenBalance (canonicalSovTokenId X) a) = none

/-- The batch holds one mint of SOV, on top of the committed contract and supply. -/
structure SovMinted (X : Externals) (s : AList Key.Val) (contract : TokenContract) (supply : Nat) (recipient : Address)
    (amount : Nat) (b : Batch Key.Val) : Prop where
  newSupply : b.lookup (.tokenSupply (canonicalSovTokenId X)) = some (some (supply + amount))
  newContract : b.lookup (.tokenContract (canonicalSovTokenId X)) =
    some (some (contract.afterMint supply ((committed s).balance (canonicalSovTokenId X) recipient) recipient amount))
  newBalance : b.lookup (.tokenBalance (canonicalSovTokenId X) recipient) =
    some (stored ((committed s).balance (canonicalSovTokenId X) recipient + amount))
  others : OnlyRecipient X recipient b

section

variable {contract : TokenContract} {supply : Nat}

theorem lookup_putTokenContract {t : TokenId}
    (hput : (Sled.putTokenContract contract : TxProg Unit).stage sledView s b = .ok ((), b'))
    (hid : contract.tokenId = t) : b'.lookup (.tokenContract t) = some (some contract) := by
  subst hid
  cases hput
  exact AList.lookup_insert _

theorem sovMinted_of_stage {recipient : Address} {amount : Nat} {b₁ : Batch Key.Val}
    (hmint : (applyTokenMint (canonicalSovTokenId X) recipient amount).stage sledView s b = .ok ((), b₁))
    (hsync : (syncCanonicalSovContractAfterMint X recipient amount).stage sledView s b₁ = .ok ((), b'))
    (hamount : amount ≠ 0) (hcontract : (committed s).contract (canonicalSovTokenId X) = some contract)
    (hid : contract.tokenId = canonicalSovTokenId X) (hsupply : (committed s).supply (canonicalSovTokenId X) = some supply)
    (hb : OnlyRecipient X recipient b) : SovMinted X s contract supply recipient amount b' := by
  obtain ⟨hfits, rfl⟩ := stage_creditToken_eq_ok.mp hmint
  have hwrap : wrapU128 ((committed s).balance (canonicalSovTokenId X) recipient + amount) =
      (committed s).balance (canonicalSovTokenId X) recipient + amount :=
    Nat.mod_eq_of_lt (Nat.lt_of_le_of_lt (hfits.resolve_left hamount) (by decide))
  unfold syncCanonicalSovContractAfterMint at hsync
  obtain ⟨_, _, hread, hsync⟩ := Prog.stage_bind_eq_ok.mp hsync
  rw [stage_getTokenContract, hcontract] at hread
  cases hread
  obtain ⟨_, _, hread, hsync⟩ := Prog.stage_bind_eq_ok.mp hsync
  rw [stage_getTokenSupply, hsupply] at hread
  cases hread
  obtain ⟨newSupply, _, hadd, hsync⟩ := Prog.stage_bind_eq_ok.mp hsync
  obtain ⟨hadd, rfl⟩ := stage_requireSome_eq_ok.mp hadd
  obtain ⟨_, _, hread, hsync⟩ := Prog.stage_bind_eq_ok.mp hsync
  rw [stage_getTokenBalance] at hread
  cases hread
  obtain ⟨⟨⟩, _, hput, hsync⟩ := Prog.stage_bind_eq_ok.mp hsync
  rw [stage_putTokenSupply] at hput
  cases hput
  obtain rfl : supply + amount = newSupply := by
    unfold checkedAddU128 at hadd
    split at hadd
    · exact Option.some.inj hadd
    · cases hadd
  have hnew := lookup_putTokenContract hsync hid
  rw [hwrap] at hnew
  rw [stage_putTokenContract] at hsync
  cases hsync
  refine ⟨?_, hnew, ?_, fun a ha => ?_⟩
  · rw [AList.lookup_insert_ne (by simp), AList.lookup_insert]
  · rw [AList.lookup_insert_ne (by simp), AList.lookup_insert_ne (by simp), writeBalance, if_neg hamount, AList.lookup_insert]
  · rw [AList.lookup_insert_ne (by simp), AList.lookup_insert_ne (by simp),
      lookup_writeBalance fun heq => ha (Key.tokenBalance.inj heq).2]
    exact hb a ha

theorem TxStaged.sov_cases (h : TxStaged X E s height tx b o b') (htx : tx.MintsSov X)
    (hcontract : (committed s).contract (canonicalSovTokenId X) = some contract)
    (hid : contract.tokenId = canonicalSovTokenId X)
    (hsupply : (committed s).supply (canonicalSovTokenId X) = some supply) :
    (∀ k : Key, k.OfSov X → b'.lookup k = b.lookup k) ∨
      ∃ r n, sovMintOf X tx = some (r, n) ∧ (OnlyRecipient X r b → SovMinted X s contract supply r n b') := by
  rcases htx with htype | ⟨htype, hsov⟩
  · have hp := h.handler .legacySystem (applyWalletRegistration X tx height) (by simp [applyTx, applyTransaction, htype])
    obtain ⟨data, b₁, hdata, hp⟩ := Prog.stage_bind_eq_ok.mp hp
    obtain ⟨hdata, rfl⟩ := stage_requireSome_eq_ok.mp hdata
    obtain ⟨⟨⟩, b₂, hput, hp⟩ := Prog.stage_bind_eq_ok.mp hp
    have hwallet : ∀ k : Key, k.OfSov X → b₂.lookup k = b.lookup k := by
      cases hput
      intro k hk
      refine AList.lookup_insert_ne ?_
      rintro rfl
      exact hk
    rcases Prog.stage_ite_eq_ok.mp hp with ⟨hbalance, hp⟩ | ⟨-, hp⟩
    · obtain ⟨⟨⟩, b₃, hmint, hsync⟩ := Prog.stage_bind_eq_ok.mp hp
      refine .inr ⟨data.walletId, data.initialBalance, ?_, fun hb => ?_⟩
      · simp [sovMintOf, htype, hdata, hbalance]
      · exact sovMinted_of_stage hmint hsync (by omega) hcontract hid hsupply fun a ha =>
        (hwallet (.tokenBalance _ a) rfl).trans (hb a ha)
    · cases hp
      exact .inl hwallet
  · have hp := h.handler .tokenMint (applyTokenMintTx X tx) (by simp [applyTx, applyTransaction, htype])
    obtain ⟨data, b₁, hdata, hp⟩ := Prog.stage_bind_eq_ok.mp hp
    obtain ⟨hdata, rfl⟩ := stage_requireSome_eq_ok.mp hdata
    rcases Prog.stage_ite_eq_ok.mp hp with ⟨-, hp⟩ | ⟨hamount, hp⟩
    · cases hp
    have htoken : storageToken X data.tokenId = canonicalSovTokenId X := if_pos (hsov data hdata)
    simp only [htoken, if_true] at hp
    obtain ⟨⟨⟩, b₃, hmint, hsync⟩ := Prog.stage_bind_eq_ok.mp hp
    refine .inr ⟨data.toAddr, data.amount, ?_, sovMinted_of_stage hmint hsync hamount hcontract hid hsupply⟩
    simp [sovMintOf, htype, hdata, hsov data hdata]

theorem SovMinted.congr {r : Address} {n : Nat} (h : SovMinted X s contract supply r n b)
    (hsame : ∀ k : Key, k.OfSov X → b'.lookup k = b.lookup k) : SovMinted X s contract supply r n b' where
  newSupply := (hsame (.tokenSupply _) rfl).trans h.newSupply
  newContract := (hsame (.tokenContract _) rfl).trans h.newContract
  newBalance := (hsame (.tokenBalance _ r) rfl).trans h.newBalance
  others a ha := (hsame (.tokenBalance _ a) rfl).trans (h.others a ha)

/-- All mints of SOV in the list have one recipient. -/
def OneRecipient (X : Externals) (txs : List Transaction) : Prop :=
  ∀ tx ∈ txs, ∀ tx' ∈ txs, ∀ mint mint', sovMintOf X tx = some mint → sovMintOf X tx' = some mint' → mint.1 = mint'.1

theorem TxsStaged.sov_cases {fees fees' : Nat} {txs : List Transaction} (h : TxsStaged X E s height fees ∅ txs fees' b')
    (htxs : ∀ tx ∈ txs, tx.MintsSov X) (hone : OneRecipient X txs)
    (hcontract : (committed s).contract (canonicalSovTokenId X) = some contract)
    (hid : contract.tokenId = canonicalSovTokenId X)
    (hsupply : (committed s).supply (canonicalSovTokenId X) = some supply) :
    (∀ k : Key, k.OfSov X → b'.lookup k = none) ∨
      ∃ tx ∈ txs, ∃ r n, sovMintOf X tx = some (r, n) ∧ SovMinted X s contract supply r n b' := by
  refine h.invariant (I := fun done _ b => (∀ k : Key, k.OfSov X → b.lookup k = none) ∨
    ∃ tx ∈ done, ∃ r n, sovMintOf X tx = some (r, n) ∧ SovMinted X s contract supply r n b) (List.nil_append _) ?_
    (.inl fun _ _ => rfl)
  intro done tx rest fees b o b' hall hstaged hI
  have hmem : tx ∈ txs := hall ▸ List.mem_append_right done List.mem_cons_self
  rcases hstaged.sov_cases (htxs tx hmem) hcontract hid hsupply with hsame | ⟨r, n, hmint, hminted⟩
  · rcases hI with hnone | ⟨tx', htx', r, n, hmint, hminted⟩
    · exact .inl fun k hk => (hsame k hk).trans (hnone k hk)
    · exact .inr ⟨tx', List.mem_append_left _ htx', r, n, hmint, hminted.congr hsame⟩
  · refine .inr ⟨tx, List.mem_append_right _ (List.mem_singleton_self tx), r, n, hmint, hminted ?_⟩
    rcases hI with hnone | ⟨tx', htx', r', n', hmint', hold⟩
    · exact fun a _ => hnone _ rfl
    · have hmem' : tx' ∈ txs := hall ▸ List.mem_append_left _ htx'
      obtain rfl : r' = r := hone tx' hmem' tx hmem _ _ hmint' hmint
      exact hold.others

end

/-! ## Chains -/

section

variable {st st' : SledStore} {block : Block}

theorem TokenContract.balanceOf_setBalance_ofKeyId (contract : TokenContract) (a a' : Address) (n : Nat) :
    (contract.setBalance (.ofKeyId a) n).balanceOf (.ofKeyId a') =
      if a' = a then n else contract.balanceOf (.ofKeyId a') := by
  rw [balanceOf_setBalance]
  exact if_congr ⟨congrArg PublicKey.keyId, congrArg PublicKey.ofKeyId⟩ rfl rfl

theorem tokenTotal_update (st st' : SledStore) {t : TokenId} {r : Address}
    (h : ∀ a, a ≠ r → st'.state.balance t a = st.state.balance t a) :
    tokenTotal st'.trees t + st.state.balance t r = tokenTotal st.trees t + st'.state.balance t r := by
  rw [← weight_balance, ← weight_balance]
  refine total_update fun k hk => ?_
  by_cases hsov : ∃ a, k = .tokenBalance t a
  · obtain ⟨a, rfl⟩ := hsov
    have hne : a ≠ r := fun heq => hk (by rw [heq])
    exact (weight_balance st'.state t a).trans ((h a hne).trans (weight_balance st.state t a).symm)
  · have hzero := balanceWeight_eq_zero (t := t) (k := k) fun a heq => hsov ⟨a, heq⟩
    rw [weight_eq_zero hzero, weight_eq_zero hzero]

structure SovMintBlock (X : Externals) (block : Block) : Prop where
  mints : ∀ tx ∈ block.transactions, tx.MintsSov X
  oneRecipient : OneRecipient X block.transactions

theorem isState_of_ofSov {k : Key} (h : k.OfSov X) : k.IsState ∧ k.tree ∉ utxoTrees := by
  cases k with
  | tokenSupply t => exact ⟨by simp [Key.IsState, Key.tree], by simp [Key.tree, utxoTrees, merkleTrees]⟩
  | tokenContract t => exact ⟨by simp [Key.IsState, Key.tree], by simp [Key.tree, utxoTrees, merkleTrees]⟩
  | tokenBalance t a => exact ⟨by simp [Key.IsState, Key.tree], by simp [Key.tree, utxoTrees, merkleTrees]⟩
  | _ => exact h.elim

theorem Accepts.sov_cases (h : Accepts X E st block st') (hblock : SovMintBlock X block)
    (hids : canonicalSovTokenId X ≠ X.deriveCbeTokenId) {contract : TokenContract}
    {supply : Nat} (hcontract : st.state.contract (canonicalSovTokenId X) = some contract)
    (hid : contract.tokenId = canonicalSovTokenId X) (hsupply : st.state.supply (canonicalSovTokenId X) = some supply) :
    ∃ b, (∀ k : Key, k.OfSov X → st'.state k = staged st.trees b k) ∧
      ((∀ k : Key, k.OfSov X → b.lookup k = none) ∨ ∃ r n, SovMinted X st.trees contract supply r n b) := by
  obtain ⟨o, h⟩ := h
  by_cases hheight : block.header.height = 0
  · refine ⟨∅, fun k hk => applyBlock_genesis h hheight (isState_of_ofSov hk).1 ?_ ?_, .inl fun _ _ => rfl⟩
    · rintro rfl
      exact hk
    · rintro rfl
      exact hids hk.symm
  obtain ⟨fees, b₁, b₂, htxs, hcoinbase, hstate⟩ := applyBlock_staged h hheight
  have hsub : ∀ tx ∈ nonCoinbaseTxs block, tx ∈ block.transactions := fun tx htx => List.mem_of_mem_filter htx
  refine ⟨b₁, fun k hk => ?_, ?_⟩
  · obtain ⟨hk, hnot⟩ := isState_of_ofSov hk
    refine (hstate k hk).trans ?_
    rw [staged, staged, latest, latest, hcoinbase.lookup_eq hnot]
  · refine (htxs.sov_cases (fun tx htx => hblock.mints tx (hsub tx htx))
      (fun tx htx tx' htx' => hblock.oneRecipient tx (hsub tx htx) tx' (hsub tx' htx')) hcontract hid hsupply).imp_right ?_
    rintro ⟨tx, -, r, n, -, hminted⟩
    exact ⟨r, n, hminted⟩

theorem SovAgrees.congr (hst : SovAgrees X st) (hsame : ∀ k : Key, k.OfSov X → st'.state k = st.state k) :
    SovAgrees X st' := by
  obtain ⟨contract, hcontract, hid, htotal, hbalances⟩ := hst.contract
  have hbalance : ∀ a, st'.state.balance (canonicalSovTokenId X) a = st.state.balance (canonicalSovTokenId X) a :=
    fun a => ChainState.balance_congr (hsame (.tokenBalance _ a) rfl)
  have hsum : tokenTotal st'.trees (canonicalSovTokenId X) = tokenTotal st.trees (canonicalSovTokenId X) := by
    have hupdate := tokenTotal_update st st' (r := 0) fun a _ => hbalance a
    rw [hbalance] at hupdate
    exact Nat.add_right_cancel hupdate
  refine ⟨?_, contract, (hsame (.tokenContract _) rfl).trans hcontract, hid, by rw [htotal, hsum], fun a => ?_⟩
  · rw [hsum]
    exact (hsame (.tokenSupply _) rfl).trans hst.supply
  · rw [hbalance, hbalances]

theorem SovAgrees.mint (hst : SovAgrees X st) {contract : TokenContract}
    (hcontract : st.state.contract (canonicalSovTokenId X) = some contract) {b : Batch Key.Val} {r : Address} {n : Nat}
    (hminted : SovMinted X st.trees contract (tokenTotal st.trees (canonicalSovTokenId X)) r n b)
    (hstate : ∀ k : Key, k.OfSov X → st'.state k = staged st.trees b k) : SovAgrees X st' := by
  obtain ⟨contract', hcontract', hid, htotal, hbalances⟩ := hst.contract
  obtain rfl : contract = contract' := Option.some.inj (hcontract.symm.trans hcontract')
  have hbalance : ∀ a, st'.state.balance (canonicalSovTokenId X) a =
      if a = r then st.state.balance (canonicalSovTokenId X) r + n else st.state.balance (canonicalSovTokenId X) a := by
    intro a
    split
    · next ha =>
      rw [ha]
      refine (ChainState.balance_eq ((hstate (.tokenBalance _ r) rfl).trans ?_)).trans (stored_getD _)
      rw [staged, latest, hminted.newBalance]
      rfl
    · next ha =>
      exact ChainState.balance_congr ((hstate (.tokenBalance _ a) rfl).trans (staged_of_lookup (hminted.others a ha)))
  have hsum : tokenTotal st'.trees (canonicalSovTokenId X) = tokenTotal st.trees (canonicalSovTokenId X) + n := by
    have hupdate := tokenTotal_update st st' (r := r) fun a ha => (hbalance a).trans (if_neg ha)
    rw [hbalance, if_pos rfl] at hupdate
    omega
  refine ⟨?_, contract.afterMint (tokenTotal st.trees (canonicalSovTokenId X))
    (st.state.balance (canonicalSovTokenId X) r) r n, ?_, hid, hsum.symm, fun a => ?_⟩
  · refine (hstate (.tokenSupply _) rfl).trans ?_
    rw [staged, latest, hminted.newSupply, hsum]
    rfl
  · refine (hstate (.tokenContract _) rfl).trans ?_
    rw [staged, latest, hminted.newContract]
    rfl
  · rw [TokenContract.afterMint, TokenContract.balanceOf_setBalance_ofKeyId, hbalance, ← hbalances a]
    rfl

theorem SovAgrees.step (hst : SovAgrees X st) (h : Accepts X E st block st') (hblock : SovMintBlock X block)
    (hids : canonicalSovTokenId X ≠ X.deriveCbeTokenId) : SovAgrees X st' := by
  obtain ⟨contract, hcontract, hid, -, -⟩ := hst.contract
  obtain ⟨b, hstate, hnone | ⟨r, n, hminted⟩⟩ := h.sov_cases hblock hids hcontract hid hst.supply
  · exact hst.congr fun k hk => (hstate k hk).trans (staged_of_lookup (hnone k hk))
  · exact hst.mint hcontract hminted hstate

/-- In a chain of mints and registrations without transfers, whose blocks mint for one recipient each, the contract, the
record and the ledger agree. -/
theorem sov_agrees_without_transfers {blocks : List Block} (hst : SovAgrees X st)
    (hids : canonicalSovTokenId X ≠ X.deriveCbeTokenId)
    (hrun : Along (Chain.offer X E) (fun c block => (∃ st', Accepts X E c.store block st') → SovMintBlock X block)
      ⟨st, []⟩ blocks) : SovAgrees X (run (Chain.offer X E) ⟨st, []⟩ blocks).store :=
  Chain.invariant (I := fun c => SovAgrees X c.store) (fun _ _ _ haccept hblock hc => hc.step haccept hblock hids) hrun hst

end

theorem holderStore_agrees : SovAgrees silentExternals holderStore := by
  have hcontract : (holderStore.state.contract (canonicalSovTokenId silentExternals)).map
      (fun contract => (contract.tokenId, contract.totalSupply, contract.balances.entries)) =
        some (canonicalSovTokenId silentExternals, 10 ^ 6, [⟨.ofKeyId 10, 10 ^ 6⟩]) := by decide +kernel
  obtain ⟨contract, hstored, hfields⟩ := Option.map_eq_some_iff.mp hcontract
  obtain ⟨hid, hfields⟩ := Prod.ext_iff.mp hfields
  obtain ⟨htotal, hentries⟩ := Prod.ext_iff.mp hfields
  refine ⟨by decide +kernel, contract, hstored, hid, htotal.trans (by decide +kernel), fun a => ?_⟩
  rw [TokenContract.balanceOf, AList.lookup, show contract.balances.entries = _ from hentries]
  by_cases ha : a = 10
  · subst ha
    decide +kernel
  · have hkeys : ∀ k ∈ holderStore.trees.keys, k ∈ [.tokenBalance (canonicalSovTokenId silentExternals) 10,
        .tokenBalance silentExternals.deriveCbeTokenId defaultExecutor.feeSinkAddress] ∨ k.tree ≠ some .tokenBalances := by
      decide +kernel
    have hnone : holderStore.state (.tokenBalance (canonicalSovTokenId silentExternals) a) = none := by
      refine AList.lookup_eq_none.mpr fun hmem => ?_
      rcases hkeys _ (AList.mem_keys.mp hmem) with hkey | htree
      · rcases List.mem_cons.mp hkey with hkey | hkey
        · exact ha (Key.tokenBalance.inj hkey).2
        · exact absurd (Key.tokenBalance.inj (List.mem_singleton.mp hkey)).1 (by decide)
      · exact htree rfl
    rw [List.dlookup_cons_ne _ _ fun heq => ha (congrArg PublicKey.keyId heq), List.dlookup_nil]
    exact (ChainState.balance_eq hnone).symm

def sovMintTx (recipient : Address) (amount : Nat) : Transaction :=
  tokenTx .tokenMint (.tokenMint ⟨canonicalSovTokenId silentExternals, recipient, amount⟩)

theorem sov_agrees_without_transfers_for_one_recipient :
    Along (Chain.offer silentExternals defaultExecutor)
        (fun c block => (∃ st', Accepts silentExternals defaultExecutor c.store block st') →
          SovMintBlock silentExternals block) ⟨holderStore, []⟩ [blockAt 2 [sovMintTx 11 5, sovMintTx 11 7]] ∧
      (run (Chain.offer silentExternals defaultExecutor) ⟨holderStore, []⟩ [blockAt 2 [sovMintTx 11 5, sovMintTx 11 7]]).txs =
        [sovMintTx 11 5, sovMintTx 11 7] ∧
      SovAgrees silentExternals (run (Chain.offer silentExternals defaultExecutor) ⟨holderStore, []⟩
        [blockAt 2 [sovMintTx 11 5, sovMintTx 11 7]]).store := by
  have hmints : ∀ amount, (sovMintTx 11 amount).MintsSov silentExternals := by
    intro amount
    refine .inr ⟨rfl, ?_⟩
    rintro data ⟨⟩
    rfl
  have hrecipient : ∀ tx ∈ [sovMintTx 11 5, sovMintTx 11 7], ∀ mint,
      sovMintOf silentExternals tx = some mint → mint.1 = 11 := by
    decide
  have hrun : Along (Chain.offer silentExternals defaultExecutor)
      (fun c block => (∃ st', Accepts silentExternals defaultExecutor c.store block st') →
        SovMintBlock silentExternals block) ⟨holderStore, []⟩ [blockAt 2 [sovMintTx 11 5, sovMintTx 11 7]] := by
    refine ⟨fun _ => ⟨fun tx htx => ?_, fun tx htx tx' htx' mint mint' hmint hmint' => ?_⟩, trivial⟩
    · rcases List.mem_cons.mp htx with rfl | htx
      · exact hmints 5
      · rw [List.mem_singleton.mp htx]
        exact hmints 7
    · rw [hrecipient tx htx mint hmint, hrecipient tx' htx' mint' hmint']
  exact ⟨hrun, by decide +kernel, sov_agrees_without_transfers holderStore_agrees (by decide) hrun⟩

/-- A transfer changes the ledger and not the contract, and of two mints in one block the record keeps one. -/
theorem sov_copies_diverge :
    let transfer := tokenTx .tokenTransfer (.tokenTransfer ⟨canonicalSovTokenId silentExternals, 10, 11, 100, 0⟩)
    let moved := run (Chain.offer silentExternals defaultExecutor) ⟨holderStore, []⟩ [blockAt 2 [transfer]]
    let minted := run (Chain.offer silentExternals defaultExecutor) ⟨holderStore, []⟩
      [blockAt 2 [sovMintTx 11 5, sovMintTx 12 7]]
    SovAgrees silentExternals holderStore ∧
      moved.txs = [transfer] ∧
      moved.store.state.balance (canonicalSovTokenId silentExternals) 10 = 10 ^ 6 - 100 ∧
      (moved.store.state.contract (canonicalSovTokenId silentExternals)).map (·.balanceOf (.ofKeyId 10)) = some (10 ^ 6) ∧
      minted.txs = [sovMintTx 11 5, sovMintTx 12 7] ∧
      tokenTotal minted.store.trees (canonicalSovTokenId silentExternals) = 10 ^ 6 + 12 ∧
      minted.store.state.supply (canonicalSovTokenId silentExternals) = some (10 ^ 6 + 7) := by
  refine ⟨holderStore_agrees, ?_⟩
  decide +kernel

end SovereignNetwork.Execution
