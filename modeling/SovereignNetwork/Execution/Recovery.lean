import SovereignNetwork.Execution.Chain

/-!
# A stop in the middle of a commit

`commit_block` gives each tree its batch in one step, but the trees one after the other, and the latest height last. A
node that stops in between finds the block still missing and applies it again, over trees of which some have taken
their batch.
-/

namespace SovereignNetwork.Execution

open Lib Mutator

variable {X : Externals} {E : BlockExecutor}

/-- The commit stopped after its first `n` trees. -/
def SledStore.commitUntil (st : SledStore) (n : Nat) (b : Batch Key.Val) : SledStore where
  trees := commitTrees Key.tree (commitOrder.take n) st.trees b
  noBlockOpen := by
    intro op
    rw [lookup_commitTrees, if_neg (by simp [Key.tree])]
    exact st.noBlockOpen op

/-- `apply_block` of a node that stops after `n` trees of the commit. -/
def applyBlockUntil (X : Externals) (E : BlockExecutor) (n : Nat) (st : SledStore) (block : Block) :
    Except BlockApplyError SledStore := do
  let _ ← (validateHeader E block).stage sledView st.trees ∅
  validateBlockResources X E block
  let (_, batch) ← (applyBlockInner X E block).stage sledView st.trees ∅
  return st.commitUntil n batch

/-- Applying the block reads nothing that differs between the stores. -/
def BlockReadsSame (X : Externals) (E : BlockExecutor) (block : Block) (st st' : SledStore) : Prop :=
  (validateHeader E block).SameReads sledView st.trees st'.trees ∅ ∧
    (applyBlockInner X E block).SameReads sledView st.trees st'.trees ∅

instance (block : Block) (st st' : SledStore) : Decidable (BlockReadsSame X E block st st') :=
  inferInstanceAs (Decidable (_ ∧ _))

theorem SledStore.state_commitBlock_commitUntil (st : SledStore) (n : Nat) (b : Batch Key.Val) (k : Key) :
    ((st.commitUntil n b).commitBlock b).state k = (st.commitBlock b).state k :=
  lookup_commitTrees_take Key.tree commitOrder n st.trees b k

/-- If the trees that were written hold nothing new of what the block reads, then applying the block again gives the
store that the whole commit would have given. -/
theorem reapplication_completes_commit {st st' stopped : SledStore} {block : Block} {n : Nat}
    (haccept : Accepts X E st block st') (hstop : applyBlockUntil X E n st block = .ok stopped)
    (hsame : BlockReadsSame X E block st stopped) :
    ∃ st'', Accepts X E stopped block st'' ∧ ∀ k, st''.state k = st'.state k := by
  obtain ⟨o, haccept⟩ := haccept
  obtain ⟨_, hheader, hrest⟩ := bind_eq_ok.mp haccept
  obtain ⟨_, hresources, hrest⟩ := bind_eq_ok.mp hrest
  obtain ⟨⟨o₁, batch⟩, hinner, hcommit⟩ := bind_eq_ok.mp hrest
  cases hcommit
  have hstopped : stopped = st.commitUntil n batch := by
    simp only [applyBlockUntil, hheader, hresources, hinner] at hstop
    exact (Except.ok.inj hstop).symm
  refine ⟨stopped.commitBlock batch, ⟨o, ?_⟩, fun k => ?_⟩
  · rw [applyBlock, Prog.stage_congr hsame.1, Prog.stage_congr hsame.2, hheader, hresources, hinner]
    rfl
  · rw [hstopped]
    exact st.state_commitBlock_commitUntil n batch k

/-! ## A mint, stopped early and stopped late -/

def mintBlock : Block := blockAt 2 [tokenTx .tokenMint (.tokenMint ⟨7, 10, 100⟩)]

theorem reapplication_completes_commit_of_mint :
    ∃ st' stopped, Accepts silentExternals defaultExecutor fundedStore mintBlock st' ∧
      applyBlockUntil silentExternals defaultExecutor 8 fundedStore mintBlock = .ok stopped ∧
      ∃ st'', Accepts silentExternals defaultExecutor stopped mintBlock st'' ∧ ∀ k, st''.state k = st'.state k := by
  have haccept : (applyBlock silentExternals defaultExecutor fundedStore mintBlock).toOption.map
      (fun r => r.1.txCount) = some 1 := by decide +kernel
  have hstop : (applyBlockUntil silentExternals defaultExecutor 8 fundedStore mintBlock).toOption.map
      (fun stopped => decide (BlockReadsSame silentExternals defaultExecutor mintBlock fundedStore stopped)) =
        some true := by decide +kernel
  obtain ⟨⟨o, st'⟩, hok, -⟩ := exists_ok_of_map_eq_some haccept
  obtain ⟨stopped, hstopped, hsame⟩ := exists_ok_of_map_eq_some hstop
  exact ⟨st', stopped, ⟨o, hok⟩, hstopped,
    reapplication_completes_commit ⟨o, hok⟩ hstopped (of_decide_eq_true hsame)⟩

/-- Once the tree of balances has taken the mint, applying the block again mints a second time. -/
theorem reapplication_mints_twice :
    ∃ st' stopped st'', Accepts silentExternals defaultExecutor fundedStore mintBlock st' ∧
      applyBlockUntil silentExternals defaultExecutor 9 fundedStore mintBlock = .ok stopped ∧
      Accepts silentExternals defaultExecutor stopped mintBlock st'' ∧
      st'.state.balance 7 10 = 200 ∧ st''.state.balance 7 10 = 300 := by
  have haccept : (applyBlock silentExternals defaultExecutor fundedStore mintBlock).toOption.map
      (fun r => r.2.state.balance 7 10) = some 200 := by decide +kernel
  have hagain : ((applyBlockUntil silentExternals defaultExecutor 9 fundedStore mintBlock).toOption.bind fun stopped =>
      (applyBlock silentExternals defaultExecutor stopped mintBlock).toOption.map fun r => r.2.state.balance 7 10) =
        some 300 := by decide +kernel
  obtain ⟨⟨o, st'⟩, hok, hbalance⟩ := exists_ok_of_map_eq_some haccept
  cases hstop : applyBlockUntil silentExternals defaultExecutor 9 fundedStore mintBlock with
  | error e =>
    rw [hstop] at hagain
    cases hagain
  | ok stopped =>
    rw [hstop] at hagain
    obtain ⟨⟨o', st''⟩, hok', hbalance'⟩ := exists_ok_of_map_eq_some hagain
    exact ⟨st', stopped, st'', ⟨o, hok⟩, rfl, ⟨o', hok'⟩, hbalance, hbalance'⟩

end SovereignNetwork.Execution
