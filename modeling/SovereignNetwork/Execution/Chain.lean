import SovereignNetwork.Execution.Lemmas.Blocks
import SovereignNetwork.Lib.Run

/-!
# Chains of blocks

A chain is a store together with the blocks that it has accepted. A block that the executor rejects changes nothing.
-/

namespace SovereignNetwork.Execution

open Lib Mutator

variable {X : Externals} {E : BlockExecutor}

def SledStore.state (st : SledStore) : ChainState := committed st.trees

def Accepts (X : Externals) (E : BlockExecutor) (st : SledStore) (block : Block) (st' : SledStore) : Prop :=
  ∃ o, applyBlock X E st block = .ok (o, st')

structure Chain where
  store : SledStore
  /-- The accepted blocks, the oldest first. -/
  blocks : List Block

def Chain.offer (X : Externals) (E : BlockExecutor) (c : Chain) (block : Block) : Chain :=
  match applyBlock X E c.store block with
  | .ok (_, st) => ⟨st, c.blocks ++ [block]⟩
  | .error _ => c

theorem Chain.offer_cases (c : Chain) (block : Block) :
    (∃ st, Accepts X E c.store block st ∧ c.offer X E block = ⟨st, c.blocks ++ [block]⟩) ∨ c.offer X E block = c := by
  unfold offer
  cases h : applyBlock X E c.store block with
  | ok r => exact .inl ⟨r.2, ⟨r.1, h⟩, rfl⟩
  | error e => exact .inr rfl

/-- The invariant rule for chains: `I` need only be kept by accepted blocks that meet the condition. -/
theorem Chain.invariant {cond : Chain → Block → Prop} {I : Chain → Prop} {c : Chain} {blocks : List Block}
    (hstep : ∀ c block st, Accepts X E c.store block st → cond c block → I c → I ⟨st, c.blocks ++ [block]⟩)
    (hrun : Along (Chain.offer X E) (fun c block => (∃ st, Accepts X E c.store block st) → cond c block) c blocks)
    (h : I c) : I (run (Chain.offer X E) c blocks) := by
  refine hrun.invariant (fun c block hcond hc => ?_) h
  rcases c.offer_cases (X := X) (E := E) block with ⟨st, haccept, heq⟩ | heq
  · rw [heq]
    exact hstep c block st haccept (hcond ⟨st, haccept⟩) hc
  · rwa [heq]

theorem Chain.invariant_of_accepts {I : Chain → Prop} {c : Chain} (blocks : List Block)
    (hstep : ∀ c block st, Accepts X E c.store block st → I c → I ⟨st, c.blocks ++ [block]⟩) (h : I c) :
    I (run (Chain.offer X E) c blocks) := by
  have hany : ∀ c block st, Accepts X E c.store block st → True → I c → I ⟨st, c.blocks ++ [block]⟩ :=
    fun c block st haccept _ => hstep c block st haccept
  exact Chain.invariant hany (.of_forall (fun _ _ _ => trivial) _ _) h

def Block.appliedTxs (block : Block) : List Transaction := if block.header.height = 0 then [] else block.transactions

theorem Block.appliedTxs_sublist (block : Block) : block.appliedTxs.Sublist block.transactions := by
  unfold appliedTxs
  split
  · exact List.nil_sublist _
  · exact List.Sublist.refl _

def Chain.txs (c : Chain) : List Transaction := c.blocks.flatMap Block.appliedTxs

theorem Chain.txs_concat (c : Chain) (st : SledStore) (block : Block) :
    Chain.txs ⟨st, c.blocks ++ [block]⟩ = c.txs ++ block.appliedTxs := by
  simp [Chain.txs]

/-! ## What a block does to one entry -/

/-- An entry of the state that neither genesis nor a coinbase writes. -/
structure Key.Plain (k : Key) : Prop where
  isState : k.IsState
  notGenesis : k.tree ∉ [some .metaTree, some .tokenBalances]
  notCoinbase : k.tree ∉ utxoTrees

section

variable {st st' : SledStore} {block : Block} {k : Key}

theorem mem_nonCoinbaseTxs {tx : Transaction} (htx : tx ∈ block.appliedTxs) (htype : tx.transactionType ≠ .coinbase) :
    block.header.height ≠ 0 ∧ tx ∈ nonCoinbaseTxs block := by
  unfold Block.appliedTxs at htx
  split at htx
  · cases htx
  · next hheight => exact ⟨hheight, List.mem_filter.mpr ⟨htx, by simp [htype]⟩⟩

theorem Accepts.exists_staged (h : Accepts X E st block st') {tx : Transaction} (htx : tx ∈ block.appliedTxs)
    (htype : tx.transactionType ≠ .coinbase) : ∃ b o b', TxStaged X E st.trees block.header.height tx b o b' := by
  obtain ⟨o, h⟩ := h
  obtain ⟨hheight, hloop⟩ := mem_nonCoinbaseTxs htx htype
  obtain ⟨fees, b₁, b₂, htxs, -, -⟩ := applyBlock_staged h hheight
  obtain ⟨b, o, b', hstaged, -⟩ := htxs.exists_staged hloop
  exact ⟨b, o, b', hstaged⟩

end

/-! ## Blocks of one transaction -/

/-- The transaction, alone in a block after genesis, is accepted. -/
structure AppliedAlone (X : Externals) (E : BlockExecutor) (st : SledStore) (block : Block) (tx : Transaction)
    (st' : SledStore) : Prop where
  alone : block.transactions = [tx]
  notGenesis : block.header.height ≠ 0
  accepted : Accepts X E st block st'

theorem AppliedAlone.staged {st st' : SledStore} {block : Block} {tx : Transaction}
    (h : AppliedAlone X E st block tx st') (htype : tx.transactionType ≠ .coinbase) :
    ∃ o b, TxStaged X E st.trees block.header.height tx ∅ o b ∧
      ∀ k : Key, k.IsState → st'.state k = Execution.staged st.trees b k := by
  obtain ⟨o, haccept⟩ := h.accepted
  obtain ⟨fees, b₁, b₂, htxs, hcoinbase, hstate⟩ := applyBlock_staged haccept h.notGenesis
  have hloop : nonCoinbaseTxs block = [tx] := by simp [nonCoinbaseTxs, h.alone, htype]
  have hnone : coinbaseOf block = none := by simp [coinbaseOf, h.alone, htype]
  rw [hloop] at htxs
  rw [hnone] at hcoinbase
  obtain rfl := hcoinbase
  cases htxs with
  | cons head tail =>
    cases tail
    exact ⟨_, _, head, hstate⟩

theorem AppliedAlone.txs {c : Chain} {st : SledStore} {block : Block} {tx : Transaction}
    (h : AppliedAlone X E c.store block tx st) : Chain.txs ⟨st, c.blocks ++ [block]⟩ = c.txs ++ [tx] := by
  simp [Chain.txs, Block.appliedTxs, h.notGenesis, h.alone]

/-- Every accepted block of the run comes after genesis and holds one transaction only, which meets the condition. -/
def LoneTxRun (X : Externals) (E : BlockExecutor) (cond : Chain → Transaction → Prop) (c : Chain)
    (blocks : List Block) : Prop :=
  Along (Chain.offer X E) (fun c block => (∃ st, Accepts X E c.store block st) →
    block.header.height ≠ 0 ∧ ∃ tx, block.transactions = [tx] ∧ cond c tx) c blocks

theorem LoneTxRun.invariant {cond : Chain → Transaction → Prop} {I : Chain → Prop} {c : Chain} {blocks : List Block}
    (hrun : LoneTxRun X E cond c blocks)
    (hstep : ∀ c block tx st, AppliedAlone X E c.store block tx st → cond c tx → I c → I ⟨st, c.blocks ++ [block]⟩)
    (h : I c) : I (run (Chain.offer X E) c blocks) := by
  refine Chain.invariant ?_ hrun h
  rintro c block st haccept ⟨hheight, tx, halone, hcond⟩ hc
  exact hstep c block tx st ⟨halone, hheight, haccept⟩ hcond hc

theorem total_of_state {w : (k : Key) → k.Val → Nat} {st st' : SledStore} {b : Batch Key.Val}
    (h : ∀ k : Key, k.IsState → st'.state k = Execution.staged st.trees b k)
    (hw : ∀ k : Key, ¬ k.IsState → ∀ v, w k v = 0) : total w st'.trees = totalAfter w st.trees b := by
  refine totalAfter_congr fun k => ?_
  by_cases hk : k.IsState
  · exact congrArg (weight w k) (h k hk)
  · rw [weight_eq_zero (hw k hk), weight_eq_zero (hw k hk)]

theorem tokenTotal_of_state {t : TokenId} {st st' : SledStore} {b : Batch Key.Val}
    (h : ∀ k : Key, k.IsState → st'.state k = Execution.staged st.trees b k) :
    tokenTotal st'.trees t = totalAfter (balanceWeight t) st.trees b := by
  refine total_of_state h fun k hk => balanceWeight_eq_zero ?_
  rintro a rfl
  exact hk (by simp [Key.IsState, Key.tree])

/-! ## A store to start from -/

def holderBlocks : List Block :=
  [blockAt 0 [], blockAt 1 [tokenTx .tokenMint (.tokenMint ⟨canonicalSovTokenId silentExternals, 10, 10 ^ 6⟩)]]

def holderStore : SledStore := storeAfter silentExternals defaultExecutor holderBlocks

def stakeTx (amount nonce : Nat) : Transaction :=
  { tokenTx .daoStake (.daoStake ⟨daoHealthcareKeyId, 10, amount, nonce, 0⟩) with signature := ⟨[], .ofKeyId 10⟩ }

end SovereignNetwork.Execution
