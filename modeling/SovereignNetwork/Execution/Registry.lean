import SovereignNetwork.Execution.Bytes
import SovereignNetwork.Execution.Chain

/-!
# Keys of contract storage

DAO proposals, votes and executions and deployed contracts share one tree. The first byte of a key tells them apart.
-/

namespace SovereignNetwork.Execution

open Lib Mutator

/-- What the keys of a contract's storage start with, and the first byte of that. -/
def storageTags : List (String × UInt8) :=
  [("proposal:", 112), ("proposal_index:", 112), ("execution:", 101), ("vote:", 118), ("last_execution_proposal", 108),
    ("__contract_type", 95), ("__abi", 95), ("__init_args", 95), ("__limits", 95), ("__call:", 95),
    ("__last_call_key", 95)]

theorem head?_of_mem : ∀ t ∈ storageTags, (bytesOf t.1).head? = some t.2 := by
  decide +kernel

theorem head?_tag {tag : String} {byte : UInt8} (h : (tag, byte) ∈ storageTags) : (bytesOf tag).head? = some byte :=
  head?_of_mem (tag, byte) h

theorem head?_tagged {tag : String} {byte : UInt8} (h : (tag, byte) ∈ storageTags) (rest : List UInt8) :
    (bytesOf tag ++ rest).head? = some byte := by
  rw [List.head?_append, head?_tag h]
  rfl

theorem deploymentTag_mem :
    ∀ tag ∈ ["__contract_type", "__abi", "__init_args", "__limits"], (tag, 95) ∈ storageTags := by
  decide

theorem storageTypes_of_trees {type : TransactionType} (h : some .contractStorage ∈ type.trees) :
    type = .daoProposal ∨ type = .daoVote ∨ type = .daoExecution ∨ type = .contractDeployment ∨
      type = .contractExecution := by
  cases type <;> first | decide | exact absurd h (by decide)

theorem plain_contractStorage (contract : Bytes 32) (key : List UInt8) : (Key.contractStorage contract key).Plain :=
  ⟨by simp [Key.IsState, Key.tree], by simp [Key.tree], by simp [Key.tree, utxoTrees, merkleTrees]⟩

def proposalTx (title : String) : Transaction :=
  tokenTx .daoProposal (.daoProposal ⟨7, "did:proposer", title, "text", "treasury", 10, 1, none, 0, 1⟩)

end SovereignNetwork.Execution
