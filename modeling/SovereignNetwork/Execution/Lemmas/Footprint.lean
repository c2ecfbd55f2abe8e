import SovereignNetwork.Execution.Lemmas.Curve

/-!
# Which trees a transaction writes
-/

namespace SovereignNetwork.Execution

open Lib Mutator

variable {X : Externals} {E : BlockExecutor}

/-- The write is to one of the trees. The leaves that the current block has placed are in none. -/
def InTrees (trees : List (Option Tree)) : (k : Key) → Option k.Val → Prop := fun k _ => k.tree ∈ trees

/-- The program writes only to these trees, over any store. -/
def WritesIn {ε α : Type} (trees : List (Option Tree)) (p : Prog Key.Val ε α) : Prop :=
  ∀ s, p.Ensures sledView s (InTrees trees) fun _ => True

theorem WritesIn.lookup_eq {ε α : Type} {trees : List (Option Tree)} {p : Prog Key.Val ε α} (hp : WritesIn trees p)
    {s : AList Key.Val} {b b' : Batch Key.Val} {a : α} (h : p.stage sledView s b = .ok (a, b')) {k : Key}
    (hk : k.tree ∉ trees) : b'.lookup k = b.lookup k :=
  (hp s).lookup_eq h fun _ => hk

theorem WritesIn.bind {ε α β : Type} {trees : List (Option Tree)} {p : Prog Key.Val ε α} {f : α → Prog Key.Val ε β}
    (hp : WritesIn trees p) (hf : ∀ a, WritesIn trees (f a)) : WritesIn trees (p >>= f) :=
  fun s => Prog.ensures_bind.mpr ((hp s).mono (fun _ _ h => h) fun a _ => hf a s)

theorem WritesIn.mono {ε α : Type} {trees trees' : List (Option Tree)} {p : Prog Key.Val ε α} (h : trees ⊆ trees')
    (hp : WritesIn trees p) : WritesIn trees' p :=
  fun s => (hp s).mono (fun _ _ hk => h hk) fun _ _ => trivial

section

variable {ε α : Type} {trees : List (Option Tree)}

theorem writesIn_fail (e : ε) : WritesIn trees (.fail e : Prog Key.Val ε α) := fun _ => trivial

theorem writesIn_pure (a : α) : WritesIn trees (pure a : Prog Key.Val ε α) := fun _ => trivial

theorem writesIn_getKey (k : Key) : WritesIn trees (Sled.getKey k : Prog Key.Val ε _) := fun _ _ => trivial

theorem writesIn_putKey {k : Key} (hk : k.tree ∈ trees) (v : k.Val) : WritesIn trees (Sled.putKey k v : Prog Key.Val ε _) :=
  fun _ => ⟨hk, trivial⟩

theorem writesIn_deleteKey {k : Key} (hk : k.tree ∈ trees) : WritesIn trees (Sled.deleteKey k : Prog Key.Val ε _) :=
  fun _ => ⟨hk, trivial⟩

end

/-! ## UTXOs and their Merkle tree -/

section

variable {ε : Type}

def merkleTrees : List (Option Tree) :=
  [some .utxoMerkleLeaves, some .utxoMerkleIndex, some .utxoMerkleMeta, some .utxoMerkleNodes, none]

def utxoTrees : List (Option Tree) := some .utxos :: merkleTrees

theorem writesIn_updateMerkleLevels (levels : Nat) : ∀ level index hash,
    WritesIn merkleTrees (Sled.updateMerkleLevels X levels level index hash : Prog Key.Val ε Hash) := by
  induction levels with
  | zero => exact fun _ _ hash => writesIn_pure hash
  | succ levels ih =>
    intro level index hash
    refine .bind (writesIn_putKey (by simp [merkleTrees, Key.tree]) _) fun _ => .bind ?_ fun sibling => ih _ _ _
    exact .bind (writesIn_getKey _) fun _ => writesIn_pure _

theorem writesIn_updateMerklePath (index : Nat) (hash : Hash) :
    WritesIn merkleTrees (Sled.updateMerklePath X index hash : Prog Key.Val ε Unit) :=
  .bind (writesIn_updateMerkleLevels _ _ _ _) fun _ =>
    .bind (writesIn_putKey (by decide) _) fun _ => writesIn_putKey (by decide) _

theorem writesIn_putUtxoMerkleLeaf (op : OutPoint) (leaf : Hash) :
    WritesIn merkleTrees (Sled.putUtxoMerkleLeaf X op leaf) := by
  have hplace : WritesIn merkleTrees (do
      let nextIndex ← Sled.getMerkleNextIndex
      Sled.putKey (.merkleLeaf nextIndex) leaf
      Sled.putKey (.merkleIndex op) nextIndex
      Sled.putKey .merkleNextIndex (wrapU64 (nextIndex + 1))
      Sled.putKey (.merkleIndexed op) nextIndex
      Sled.updateMerklePath X nextIndex leaf
      return nextIndex : Prog Key.Val StorageError Nat) :=
    .bind (.bind (writesIn_getKey _) fun _ => writesIn_pure _) fun _ =>
      .bind (writesIn_putKey (by simp [merkleTrees, Key.tree]) _) fun _ =>
      .bind (writesIn_putKey (by simp [merkleTrees, Key.tree]) _) fun _ =>
      .bind (writesIn_putKey (by simp [merkleTrees, Key.tree]) _) fun _ =>
      .bind (writesIn_putKey (by simp [merkleTrees, Key.tree]) _) fun _ =>
      .bind (writesIn_updateMerklePath _ _) fun _ => writesIn_pure _
  refine .bind (writesIn_getKey _) fun indexed => ?_
  cases indexed with
  | some _ => exact writesIn_fail _
  | none =>
    refine .bind (writesIn_getKey _) fun committed => ?_
    cases committed with
    | some _ => exact writesIn_fail _
    | none => exact hplace

theorem writesIn_clearMerkleLeaf (op : OutPoint) (index : Nat) :
    WritesIn merkleTrees (Sled.clearMerkleLeaf X op index : Prog Key.Val ε Unit) :=
  .bind (writesIn_putKey (by simp [merkleTrees, Key.tree]) _) fun _ =>
    .bind (writesIn_deleteKey (by simp [merkleTrees, Key.tree])) fun _ => writesIn_updateMerklePath _ _

theorem writesIn_deleteUtxoMerkleLeaf (op : OutPoint) :
    WritesIn merkleTrees (Sled.deleteUtxoMerkleLeaf X op : Prog Key.Val ε Unit) := by
  refine .bind (writesIn_getKey _) fun indexed => ?_
  cases indexed with
  | some index => exact .bind (writesIn_deleteKey (by simp [merkleTrees, Key.tree])) fun _ => writesIn_clearMerkleLeaf _ _
  | none =>
    refine .bind (writesIn_getKey _) fun committed => ?_
    cases committed with
    | some index => exact writesIn_clearMerkleLeaf _ _
    | none => exact writesIn_pure _

theorem writesIn_spendUtxo (op : OutPoint) : WritesIn utxoTrees (spendUtxo X op) := by
  have hleaf : WritesIn utxoTrees (Sled.deleteUtxoMerkleLeaf X op : TxProg Unit) :=
    (writesIn_deleteUtxoMerkleLeaf op).mono (List.subset_cons_self _ _)
  intro s
  simpa [spendUtxo, Sled.deleteUtxo, InTrees, utxoTrees, Key.tree] using fun _ _ _ => hleaf s

theorem writesIn_createUtxo (op : OutPoint) (u : Utxo) : WritesIn utxoTrees (createUtxo X op u) := by
  refine .bind (writesIn_putKey (by simp [utxoTrees, Key.tree]) _) fun _ => ?_
  cases u.merkleLeaf with
  | none => exact writesIn_pure _
  | some leaf =>
    refine .bind (fun s => ?_) fun _ => writesIn_pure _
    exact Prog.ensures_mapError.mpr (((writesIn_putUtxoMerkleLeaf op leaf).mono (List.subset_cons_self _ _)) s)

theorem writesIn_spendInputs (inputs : List TransactionInput) : ∀ totalInput,
    WritesIn utxoTrees (spendInputs X inputs totalInput) := by
  induction inputs with
  | nil => exact fun totalInput => writesIn_pure totalInput
  | cons input inputs ih =>
    exact fun totalInput => .bind (writesIn_spendUtxo _) fun utxo => .bind (fun s => by simp) fun _ => ih _

theorem writesIn_createTransferOutputs {txHash : Hash} {blockHeight amountPerOutput remainder : Nat}
    (outputs : List TransactionOutput) : ∀ index totalOutput,
    WritesIn utxoTrees (createTransferOutputs X txHash blockHeight amountPerOutput remainder outputs index totalOutput) := by
  induction outputs with
  | nil => exact fun _ totalOutput => writesIn_pure totalOutput
  | cons output outputs ih =>
    intro index totalOutput s
    have hstep : ∀ amount, (createUtxo X ⟨txHash, wrapU32 index⟩ (outputUtxo output amount blockHeight)).Ensures sledView s
        (InTrees utxoTrees) fun _ => totalOutput + amount ≤ u128Max → (createTransferOutputs X txHash blockHeight
          amountPerOutput remainder outputs (index + 1) (totalOutput + amount)).Ensures sledView s (InTrees utxoTrees)
            fun _ => True :=
      fun amount => (writesIn_createUtxo _ _ s).mono (fun _ _ h => h) fun _ _ _ => ih _ _ s
    simpa [createTransferOutputs] using ⟨fun _ _ _ => hstep _, fun _ _ => hstep _⟩

theorem writesIn_applyNativeTransfer {tx : Transaction} {txHash : Hash} {blockHeight : Nat} :
    WritesIn utxoTrees (applyNativeTransfer X tx txHash blockHeight) := by
  intro s
  have hduplicates : (rejectDuplicateInputs tx.inputs).Ensures sledView s (InTrees utxoTrees) fun _ => True := by
    unfold rejectDuplicateInputs
    split <;> trivial
  unfold applyNativeTransfer
  split
  · trivial
  refine Prog.ensures_bind.mpr (hduplicates.mono (fun _ _ h => h) fun _ _ => ?_)
  refine Prog.ensures_bind.mpr ((writesIn_spendInputs tx.inputs 0 s).mono (fun _ _ h => h) fun totalInput _ => ?_)
  simpa using fun _ _ => writesIn_createTransferOutputs tx.outputs 0 0 s

theorem writesIn_createCoinbaseOutputs {txHash : Hash} {blockHeight fees amountPerOutput remainder : Nat}
    {feeSink : Address} (outputs : List TransactionOutput) : ∀ index rewardIndex totalOutput,
    WritesIn utxoTrees (createCoinbaseOutputs X txHash blockHeight fees amountPerOutput remainder feeSink outputs index
      rewardIndex totalOutput) := by
  induction outputs with
  | nil => exact fun _ _ totalOutput => writesIn_pure totalOutput
  | cons output outputs ih =>
    exact fun _ _ _ => .bind (writesIn_createUtxo _ _) fun _ => .bind (fun s => by simp) fun _ => ih _ _ _

theorem writesIn_applyCoinbase {tx : Transaction} {txHash : Hash} {blockHeight blockReward fees : Nat} {feeSink : Address} :
    WritesIn utxoTrees (applyCoinbase X tx txHash blockHeight blockReward fees feeSink) := by
  intro s
  simpa [applyCoinbase] using fun _ _ _ _ _ => writesIn_createCoinbaseOutputs tx.outputs 0 0 0 s

end

/-! ## The handlers -/

section

variable {tx : Transaction} {h : Nat}

theorem writesIn_transferToken {t : TokenId} {fromAddr toAddr : Address} {amount : Nat} :
    WritesIn [some .tokenBalances, some .tokenSupply] (transferToken t fromAddr toAddr amount) := by
  intro s
  simp [InTrees, Key.tree]

theorem writesIn_applyTokenTransferTx : WritesIn [some .tokenBalances, some .tokenNonces] (applyTokenTransferTx X E tx) := by
  intro s
  simp [applyTokenTransferTx, applyTokenTransfer, InTrees, Key.tree]

theorem writesIn_applyTokenMintTx :
    WritesIn [some .tokenBalances, some .tokenSupply, some .tokenContracts] (applyTokenMintTx X tx) := by
  intro s
  simp [applyTokenMintTx, applyTokenMint, syncCanonicalSovContractAfterMint, InTrees, Key.tree]

theorem writesIn_applyWalletRegistration :
    WritesIn [some .wallets, some .tokenBalances, some .tokenSupply, some .tokenContracts]
      (applyWalletRegistration X tx h) := by
  intro s
  simp [applyWalletRegistration, applyTokenMint, syncCanonicalSovContractAfterMint, InTrees, Key.tree]

theorem writesIn_applyWalletUpdate : WritesIn [some .wallets] (applyWalletUpdate tx h) := by
  intro s
  simp [applyWalletUpdate, InTrees, Key.tree]

theorem writesIn_applyTokenCreation : WritesIn [some .tokenContracts, some .tokenBalances] (applyTokenCreation X tx) := by
  intro s
  unfold applyTokenCreation
  split <;> simp [tokenSymbolExistsCaseInsensitive, applyTokenMint, InTrees, Key.tree]

theorem writesIn_applyTreasuryAllocation :
    WritesIn [some .tokenBalances, some .tokenSupply] (applyTreasuryAllocation X tx) :=
  .bind (fun s => by simp) fun data s => by simp [InTrees, Key.tree]

theorem writesIn_applyDaoStake :
    WritesIn [some .tokenBalances, some .tokenSupply, some .tokenNonces, some .daoStakes] (applyDaoStake X tx h) := by
  refine .bind (fun s => by simp) fun data s => ?_
  cases hwelfare : welfareTokenForDao X data.sectorDaoKeyId <;> simp [InTrees, Key.tree]

theorem writesIn_applyDaoUnstake :
    WritesIn [some .tokenBalances, some .tokenSupply, some .tokenNonces, some .daoStakes] (applyDaoUnstake X tx h) := by
  refine .bind (fun s => by simp) fun data s => ?_
  cases hwelfare : welfareTokenForDao X data.sectorDaoKeyId <;> simp [InTrees, Key.tree]

theorem writesIn_applyDaoProposal : WritesIn [some .contractStorage] (applyDaoProposal X tx) := by
  intro s
  simp [applyDaoProposal, InTrees, Key.tree]

theorem writesIn_applyDaoVote : WritesIn [some .contractStorage] (applyDaoVote X tx h) := by
  refine .bind (fun s => by simp) fun data => .bind (fun s => by simp) fun raw => .bind (fun s => by simp) fun raw s => ?_
  split <;> simp [InTrees, Key.tree]

theorem writesIn_applyDaoExecution : WritesIn [some .contractStorage] (applyDaoExecution X tx) := by
  intro s
  simp [applyDaoExecution, InTrees, Key.tree]

section

variable {s : AList Key.Val} {W : (k : Key) → Option k.Val → Prop} {hash : Hash}

theorem ensures_applyContractDeployment_of (hcode : ∀ contract raw, W (.contractCode contract) (some raw))
    (hstorage : ∀ tag ∈ ["__contract_type", "__abi", "__init_args", "__limits"], ∀ contract raw,
      W (.contractStorage contract (bytesOf tag)) (some raw)) :
    (applyContractDeployment X tx hash).Ensures sledView s W fun _ => True := by
  simp only [List.mem_cons, List.not_mem_nil, or_false, forall_eq_or_imp, forall_eq] at hstorage
  obtain ⟨htype, habi, hargs, hlimits⟩ := hstorage
  unfold applyContractDeployment
  split <;> simp [hcode, htype, habi, hargs, hlimits]

theorem ensures_applyContractExecution_of
    (hcall : ∀ contract rest raw, W (.contractStorage contract (bytesOf "__call:" ++ rest)) (some raw))
    (hlast : ∀ contract raw, W (.contractStorage contract (bytesOf "__last_call_key")) (some raw)) :
    (applyContractExecution X tx hash h).Ensures sledView s W fun _ => True := by
  unfold applyContractExecution decodeContractCallMemo
  split
  · simp
  · simp only [Prog.ensures_bind, Prog.ensures_pure, ensures_requireSome, ensures_getContractCode, Prog.ensures_ite,
      Prog.ensures_fail, ensures_getContractStorage, implies_true, true_and]
    intro contractId _ _ _ limits _
    split <;> simp [hcall, hlast]

theorem writesIn_applyContractDeployment :
    WritesIn [some .contractCode, some .contractStorage] (applyContractDeployment X tx hash) :=
  fun _ => ensures_applyContractDeployment_of (by simp [InTrees, Key.tree]) (by simp [InTrees, Key.tree])

theorem writesIn_applyContractExecution : WritesIn [some .contractStorage] (applyContractExecution X tx hash h) :=
  fun _ => ensures_applyContractExecution_of (by simp [InTrees, Key.tree]) (by simp [InTrees, Key.tree])

end

/-! ## The curve -/

theorem writesIn_applyBuyCbe {maxPrice amountIn nextNonce : Nat} {sender : Address} {econ : BondingCurveEconomicState}
    {account : BondingCurveAccountState} :
    WritesIn [some .metaTree, some .cbeAccounts, some .tokenBalances]
      (applyBuyCbe X E maxPrice amountIn sender econ account nextNonce) := by
  intro s
  cases hmint : mintWithReserve (computeOnrampSplit amountIn).2.1 econ.sC <;>
    simp [applyBuyCbe, hmint, InTrees, Key.tree]

theorem writesIn_applySellCbe {minPayout amountCbe nextNonce : Nat} {sender : Address} {econ : BondingCurveEconomicState}
    {account : BondingCurveAccountState} :
    WritesIn [some .metaTree, some .cbeAccounts, some .tokenBalances]
      (applySellCbe X minPayout amountCbe sender econ account nextNonce) := by
  intro s
  cases hpayout : payoutForBurn amountCbe econ.sC <;> simp [applySellCbe, hpayout, InTrees, Key.tree]

theorem writesIn_applyCanonicalBondingCurveEnvelope {payload : List UInt8} {signer : Address} :
    WritesIn [some .metaTree, some .cbeAccounts, some .tokenBalances]
      (applyCanonicalBondingCurveEnvelope X E payload signer) := by
  intro s
  cases hdecode : decodeCanonicalBondingCurveTx payload with
  | error e => simp [applyCanonicalBondingCurveEnvelope, hdecode]
  | ok curveTx =>
    cases curveTx with
    | buy order =>
      simp [applyCanonicalBondingCurveEnvelope, applyCanonicalBondingCurveTx, hdecode, CanonicalBondingCurveTx.isBuy]
      intros
      exact writesIn_applyBuyCbe s
    | sell order =>
      simp [applyCanonicalBondingCurveEnvelope, applyCanonicalBondingCurveTx, hdecode, CanonicalBondingCurveTx.isBuy]
      intros
      exact writesIn_applySellCbe s

theorem writesIn_applyBondingCurveBuy :
    WritesIn [some .metaTree, some .cbeAccounts, some .tokenBalances] (applyBondingCurveBuy X E tx) := by
  refine .bind (fun s => ?_) fun payload => .bind writesIn_applyCanonicalBondingCurveEnvelope fun curveTx s => ?_
  · simp [extractBondingCurveEnvelope]
  · simp

theorem writesIn_applyBondingCurveSell :
    WritesIn [some .metaTree, some .cbeAccounts, some .tokenBalances] (applyBondingCurveSell X E tx) := by
  refine .bind (fun s => ?_) fun payload => .bind writesIn_applyCanonicalBondingCurveEnvelope fun curveTx s => ?_
  · simp [extractBondingCurveEnvelope]
  · simp

theorem writesIn_applyPayrollMint : WritesIn [some .metaTree, some .tokenBalances] (applyPayrollMint X E tx h) := by
  intro s
  cases hprice : priceAtSupply (committed s).econ.sC <;> simp [applyPayrollMint, hprice, InTrees, Key.tree]

end

/-! ## The table -/

def TransactionType.trees : TransactionType → List (Option Tree)
  | .transfer | .coinbase => utxoTrees
  | .tokenTransfer => [some .tokenBalances, some .tokenNonces]
  | .tokenMint => [some .tokenBalances, some .tokenSupply, some .tokenContracts]
  | .walletRegistration => [some .wallets, some .tokenBalances, some .tokenSupply, some .tokenContracts]
  | .walletUpdate => [some .wallets]
  | .tokenCreation => [some .tokenContracts, some .tokenBalances]
  | .contractDeployment => [some .contractCode, some .contractStorage]
  | .contractExecution | .daoProposal | .daoVote | .daoExecution => [some .contractStorage]
  | .processPayroll => [some .metaTree, some .tokenBalances]
  | .daoStake | .daoUnstake => [some .tokenBalances, some .tokenSupply, some .tokenNonces, some .daoStakes]
  | .bondingCurveBuy | .bondingCurveSell => [some .metaTree, some .cbeAccounts, some .tokenBalances]
  | .treasuryAllocation => [some .tokenBalances, some .tokenSupply]
  | _ => []

theorem writesIn_outcome {trees : List (Option Tree)} {p : TxProg Unit} (hp : WritesIn trees p) (o : TxOutcome) :
    WritesIn trees (outcome o p) :=
  .bind hp fun _ => writesIn_pure o

theorem writesIn_applyTransaction {tx : Transaction} {blockHeight : Nat} :
    WritesIn tx.transactionType.trees (applyTransaction X E tx blockHeight) := by
  unfold applyTransaction
  cases tx.transactionType with
  | transfer => exact .bind writesIn_applyNativeTransfer fun _ => writesIn_pure _
  | coinbase => exact .bind writesIn_applyCoinbase fun _ => writesIn_pure _
  | tokenTransfer => exact writesIn_outcome writesIn_applyTokenTransferTx _
  | tokenMint => exact writesIn_outcome writesIn_applyTokenMintTx _
  | walletRegistration => exact writesIn_outcome writesIn_applyWalletRegistration _
  | walletUpdate => exact writesIn_outcome writesIn_applyWalletUpdate _
  | tokenCreation => exact writesIn_outcome writesIn_applyTokenCreation _
  | contractDeployment => exact writesIn_outcome writesIn_applyContractDeployment _
  | contractExecution => exact writesIn_outcome writesIn_applyContractExecution _
  | daoProposal => exact writesIn_outcome writesIn_applyDaoProposal _
  | daoVote => exact writesIn_outcome writesIn_applyDaoVote _
  | daoExecution => exact writesIn_outcome writesIn_applyDaoExecution _
  | processPayroll => exact writesIn_outcome writesIn_applyPayrollMint _
  | daoStake => exact writesIn_outcome writesIn_applyDaoStake _
  | daoUnstake => exact writesIn_outcome writesIn_applyDaoUnstake _
  | bondingCurveBuy => exact writesIn_outcome writesIn_applyBondingCurveBuy _
  | bondingCurveSell => exact writesIn_outcome writesIn_applyBondingCurveSell _
  | treasuryAllocation => exact writesIn_outcome writesIn_applyTreasuryAllocation _
  | _ => first | exact writesIn_pure _ | exact writesIn_fail _

theorem writesIn_applyTx {tx : Transaction} {blockHeight : Nat} :
    WritesIn tx.transactionType.trees (applyTx X E tx blockHeight) := by
  unfold applyTx
  split
  · exact writesIn_fail _
  · exact writesIn_applyTransaction

end SovereignNetwork.Execution
