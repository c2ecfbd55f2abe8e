import SovereignNetwork.Execution.Curve
import SovereignNetwork.Execution.Token
import SovereignNetwork.Lib.Prog

/-!
# The sled store

The trees of `SledStore` that block execution reads or writes, with one key type for all of them. A getter reads the
committed tree, also inside a block. Merkle nodes and the next leaf index are the exception: their getters see the
block's own writes. `merkleIndexed` is the map of the leaves that the current block has placed, which is part of the
batch and of no tree.
-/

namespace SovereignNetwork.Execution

open Lib

structure WalletProjectionRecord where
  walletData : WalletTransactionData
  committedAtHeight : Nat
  deriving DecidableEq

structure DaoStakeRecord where
  staker : Address
  sectorDaoKeyId : Address
  amount : Nat
  stakedAtHeight : Nat
  lockedUntil : Nat
  deriving DecidableEq

structure Utxo where
  amount : Nat
  owner : Address
  token : TokenId
  createdAtHeight : Nat
  script : Option (List UInt8)
  merkleLeaf : Option Hash
  deriving DecidableEq

inductive Tree
  | blocksByHeight
  | blocksByHash
  | utxos
  | utxoMerkleLeaves
  | utxoMerkleIndex
  | utxoMerkleMeta
  | utxoMerkleNodes
  | wallets
  | tokenBalances
  | tokenNonces
  | tokenContracts
  | tokenSupply
  | metaTree
  | contractCode
  | contractStorage
  | cbeAccounts
  | daoStakes
  /-- The entry of the `meta` tree that `commit_block` writes last. -/
  | latestHeight
  deriving DecidableEq

/-- The order in which `commit_block` gives the trees their batches. -/
def commitOrder : List Tree :=
  [.blocksByHeight, .blocksByHash, .utxos, .utxoMerkleLeaves, .utxoMerkleIndex, .utxoMerkleMeta, .utxoMerkleNodes,
    .wallets, .tokenBalances, .tokenNonces, .tokenContracts, .tokenSupply, .metaTree, .contractCode, .contractStorage,
    .cbeAccounts, .daoStakes, .latestHeight]

inductive Key
  | blockHashAt (height : Nat)
  | block (hash : Hash)
  | latestHeight
  | utxo (op : OutPoint)
  | merkleLeaf (index : Nat)
  | merkleIndex (op : OutPoint)
  | merkleNextIndex
  | merkleRoot
  | merkleNode (level index : Nat)
  | merkleIndexed (op : OutPoint)
  | wallet (id : Hash)
  | tokenBalance (token : TokenId) (addr : Address)
  | tokenNonce (token : TokenId) (sender : Address)
  | tokenContract (token : TokenId)
  | tokenSupply (token : TokenId)
  | cbeEconomicState
  | contractCode (contract : Bytes 32)
  | contractStorage (contract : Bytes 32) (key : List UInt8)
  | cbeAccount (keyId : Bytes 32)
  | daoStake (dao staker : Address)
  deriving DecidableEq

@[reducible] def Key.Val : Key → Type
  | .blockHashAt _ => Hash
  | .block _ => Block
  | .latestHeight => Nat
  | .utxo _ => Utxo
  | .merkleLeaf _ => Hash
  | .merkleIndex _ => Nat
  | .merkleNextIndex => Nat
  | .merkleRoot => Hash
  | .merkleNode _ _ => Hash
  | .merkleIndexed _ => Nat
  | .wallet _ => WalletProjectionRecord
  | .tokenBalance _ _ => Nat
  | .tokenNonce _ _ => Nat
  | .tokenContract _ => TokenContract
  | .tokenSupply _ => Nat
  | .cbeEconomicState => BondingCurveEconomicState
  | .contractCode _ => List UInt8
  | .contractStorage _ _ => List UInt8
  | .cbeAccount _ => BondingCurveAccountState
  | .daoStake _ _ => DaoStakeRecord

instance Key.decidableEqVal : (k : Key) → DecidableEq k.Val
  | .blockHashAt _ => inferInstanceAs (DecidableEq Hash)
  | .block _ => inferInstanceAs (DecidableEq Block)
  | .latestHeight => inferInstanceAs (DecidableEq Nat)
  | .utxo _ => inferInstanceAs (DecidableEq Utxo)
  | .merkleLeaf _ => inferInstanceAs (DecidableEq Hash)
  | .merkleIndex _ => inferInstanceAs (DecidableEq Nat)
  | .merkleNextIndex => inferInstanceAs (DecidableEq Nat)
  | .merkleRoot => inferInstanceAs (DecidableEq Hash)
  | .merkleNode _ _ => inferInstanceAs (DecidableEq Hash)
  | .merkleIndexed _ => inferInstanceAs (DecidableEq Nat)
  | .wallet _ => inferInstanceAs (DecidableEq WalletProjectionRecord)
  | .tokenBalance _ _ => inferInstanceAs (DecidableEq Nat)
  | .tokenNonce _ _ => inferInstanceAs (DecidableEq Nat)
  | .tokenContract _ => inferInstanceAs (DecidableEq TokenContract)
  | .tokenSupply _ => inferInstanceAs (DecidableEq Nat)
  | .cbeEconomicState => inferInstanceAs (DecidableEq BondingCurveEconomicState)
  | .contractCode _ => inferInstanceAs (DecidableEq (List UInt8))
  | .contractStorage _ _ => inferInstanceAs (DecidableEq (List UInt8))
  | .cbeAccount _ => inferInstanceAs (DecidableEq BondingCurveAccountState)
  | .daoStake _ _ => inferInstanceAs (DecidableEq DaoStakeRecord)

def Key.tree : Key → Option Tree
  | .blockHashAt _ => some .blocksByHeight
  | .block _ => some .blocksByHash
  | .latestHeight => some .latestHeight
  | .utxo _ => some .utxos
  | .merkleLeaf _ => some .utxoMerkleLeaves
  | .merkleIndex _ => some .utxoMerkleIndex
  | .merkleNextIndex => some .utxoMerkleMeta
  | .merkleRoot => some .utxoMerkleMeta
  | .merkleNode _ _ => some .utxoMerkleNodes
  | .merkleIndexed _ => none
  | .wallet _ => some .wallets
  | .tokenBalance _ _ => some .tokenBalances
  | .tokenNonce _ _ => some .tokenNonces
  | .tokenContract _ => some .tokenContracts
  | .tokenSupply _ => some .tokenSupply
  | .cbeEconomicState => some .metaTree
  | .contractCode _ => some .contractCode
  | .contractStorage _ _ => some .contractStorage
  | .cbeAccount _ => some .cbeAccounts
  | .daoStake _ _ => some .daoStakes

theorem mem_commitOrder (t : Tree) : t ∈ commitOrder := by cases t <;> decide

/-- Do the getters see what the block has written under this key? -/
def Key.readsOwnWrites : Key → Bool
  | .merkleNode _ _ => true
  | .merkleNextIndex => true
  | .merkleIndexed _ => true
  | _ => false

def sledView : View Key.Val := fun k committed latest => if k.readsOwnWrites then latest else committed

/-- The committed trees. The in-block map of leaves is empty between blocks. -/
structure SledStore where
  trees : AList Key.Val
  noBlockOpen : ∀ op, trees.lookup (.merkleIndexed op) = none

def SledStore.empty : SledStore := ⟨∅, fun _ => rfl⟩

/-- A program that may fail with a transaction error. -/
abbrev TxProg := Prog Key.Val TxApplyError

/-- `commit_block`: the batch tree by tree. -/
def SledStore.commitBlock (s : SledStore) (b : Batch Key.Val) : SledStore where
  trees := commitTrees Key.tree commitOrder s.trees b
  noBlockOpen := by
    intro op
    rw [lookup_commitTrees, if_neg (by simp [Key.tree])]
    exact s.noBlockOpen op

theorem SledStore.lookup_commitBlock (s : SledStore) (b : Batch Key.Val) {k : Key} (hk : k.tree ≠ none) :
    (s.commitBlock b).trees.lookup k = latest s.trees b k := by
  obtain ⟨t, ht⟩ := Option.ne_none_iff_exists'.mp hk
  exact (lookup_commitTrees _ _ _ _ _).trans (if_pos ⟨t, mem_commitOrder t, ht⟩)

/-! ## Getters and setters -/

namespace Sled

variable (X : Externals) {ε : Type}

def getKey (k : Key) : Prog Key.Val ε (Option k.Val) := .get k

def putKey (k : Key) (v : k.Val) : Prog Key.Val ε Unit := .put k v

def deleteKey (k : Key) : Prog Key.Val ε Unit := .delete k

def getUtxo (op : OutPoint) : Prog Key.Val ε (Option Utxo) := getKey (.utxo op)

def putUtxo (op : OutPoint) (u : Utxo) : Prog Key.Val ε Unit := putKey (.utxo op) u

def deleteUtxo (op : OutPoint) : Prog Key.Val ε Unit := deleteKey (.utxo op)

/-- An absent balance is zero. -/
def getTokenBalance (t : TokenId) (a : Address) : Prog Key.Val ε Nat := do
  let v : Option Nat ← getKey (.tokenBalance t a)
  return v.getD 0

/-- A zero balance is removed. -/
def setTokenBalance (t : TokenId) (a : Address) (v : Nat) : Prog Key.Val ε Unit :=
  if v = 0 then deleteKey (.tokenBalance t a) else putKey (.tokenBalance t a) v

def getTokenNonce (t : TokenId) (a : Address) : Prog Key.Val ε Nat := do
  let v : Option Nat ← getKey (.tokenNonce t a)
  return v.getD 0

def setTokenNonce (t : TokenId) (a : Address) (nonce : Nat) : Prog Key.Val ε Unit :=
  if nonce = 0 then deleteKey (.tokenNonce t a) else putKey (.tokenNonce t a) nonce

def incrementTokenNonce (t : TokenId) (a : Address) : Prog Key.Val ε Nat := do
  let current ← getTokenNonce t a
  let newNonce := wrapU64 (current + 1)
  setTokenNonce t a newNonce
  return newNonce

def getTokenContract (t : TokenId) : Prog Key.Val ε (Option TokenContract) := getKey (.tokenContract t)

def putTokenContract (c : TokenContract) : Prog Key.Val ε Unit := putKey (.tokenContract c.tokenId) c

def getTokenSupply (t : TokenId) : Prog Key.Val ε (Option Nat) := getKey (.tokenSupply t)

def putTokenSupply (t : TokenId) (supply : Nat) : Prog Key.Val ε Unit := putKey (.tokenSupply t) supply

def putWalletProjection (id : Hash) (r : WalletProjectionRecord) : Prog Key.Val ε Unit := putKey (.wallet id) r

/-- An absent state is the default one. -/
def getCbeEconomicState : Prog Key.Val ε BondingCurveEconomicState := do
  let v : Option BondingCurveEconomicState ← getKey .cbeEconomicState
  return v.getD .default

def putCbeEconomicState (econ : BondingCurveEconomicState) : Prog Key.Val ε Unit := putKey .cbeEconomicState econ

def getCbeAccountState (keyId : Bytes 32) : Prog Key.Val ε BondingCurveAccountState := do
  let v : Option BondingCurveAccountState ← getKey (.cbeAccount keyId)
  return v.getD ⟨keyId, 0, 0, 0⟩

def putCbeAccountState (keyId : Bytes 32) (a : BondingCurveAccountState) : Prog Key.Val ε Unit :=
  putKey (.cbeAccount keyId) a

def getDaoStake (dao staker : Address) : Prog Key.Val ε (Option DaoStakeRecord) := getKey (.daoStake dao staker)

def putDaoStake (r : DaoStakeRecord) : Prog Key.Val ε Unit := putKey (.daoStake r.sectorDaoKeyId r.staker) r

def deleteDaoStake (dao staker : Address) : Prog Key.Val ε Unit := deleteKey (.daoStake dao staker)

def getContractCode (contract : Bytes 32) : Prog Key.Val ε (Option (List UInt8)) := getKey (.contractCode contract)

def putContractCode (contract : Bytes 32) (code : List UInt8) : Prog Key.Val ε Unit := putKey (.contractCode contract) code

def getContractStorage (contract : Bytes 32) (key : List UInt8) : Prog Key.Val ε (Option (List UInt8)) :=
  getKey (.contractStorage contract key)

def putContractStorage (contract : Bytes 32) (key value : List UInt8) : Prog Key.Val ε Unit :=
  putKey (.contractStorage contract key) value

/-- The contract of an entry, if the entry is one. -/
def contractOf? : (k : Key) → k.Val → Option TokenContract
  | .tokenContract _, c => some c
  | _, _ => none

/-! ## The Merkle tree of the UTXO set -/

def merkleDepth : Nat := 32

/-- The hash of an empty subtree of the given height. -/
def merkleZeroHash : Nat → Hash
  | 0 => 0
  | level + 1 => X.hashPair (merkleZeroHash level) (merkleZeroHash level)

def getMerkleNode (level index : Nat) : Prog Key.Val ε Hash := do
  let v : Option Hash ← getKey (.merkleNode level index)
  return v.getD (merkleZeroHash X level)

/-- The levels from `level` up: writes the node, hashes it with its sibling and goes on with the parent. -/
def updateMerkleLevels : (levels level index : Nat) → Hash → Prog Key.Val ε Hash
  | 0, _, _, hash => pure hash
  | levels + 1, level, index, hash => do
    putKey (.merkleNode level index) hash
    let sibling ← getMerkleNode X level (index ^^^ 1)
    let parent := if index % 2 = 0 then X.hashPair hash sibling else X.hashPair sibling hash
    updateMerkleLevels levels (level + 1) (index / 2) parent

def updateMerklePath (leafIndex : Nat) (leafHash : Hash) : Prog Key.Val ε Unit := do
  let root ← updateMerkleLevels X merkleDepth 0 leafIndex leafHash
  putKey (.merkleNode merkleDepth 0) root
  putKey .merkleRoot root

/-- `tx_utxo_merkle_next_index`: the counter of the block. -/
def getMerkleNextIndex : Prog Key.Val ε Nat := do
  let v : Option Nat ← getKey .merkleNextIndex
  return v.getD 0

def putUtxoMerkleLeaf (op : OutPoint) (leaf : Hash) : Prog Key.Val StorageError Nat := do
  let indexed : Option Nat ← getKey (.merkleIndexed op)
  if indexed.isSome then
    .fail (.corruptedData "UTXO already has a Merkle leaf in the current block")
  let committed : Option Nat ← getKey (.merkleIndex op)
  if committed.isSome then
    .fail (.corruptedData "UTXO already has a committed Merkle leaf")
  let nextIndex ← getMerkleNextIndex
  putKey (.merkleLeaf nextIndex) leaf
  putKey (.merkleIndex op) nextIndex
  putKey .merkleNextIndex (wrapU64 (nextIndex + 1))
  putKey (.merkleIndexed op) nextIndex
  updateMerklePath X nextIndex leaf
  return nextIndex

def clearMerkleLeaf (op : OutPoint) (index : Nat) : Prog Key.Val ε Unit := do
  putKey (.merkleLeaf index) (0 : Hash)
  deleteKey (.merkleIndex op)
  updateMerklePath X index 0

def deleteUtxoMerkleLeaf (op : OutPoint) : Prog Key.Val ε Unit := do
  let indexed : Option Nat ← getKey (.merkleIndexed op)
  match indexed with
  | some index =>
    deleteKey (.merkleIndexed op)
    clearMerkleLeaf X op index
  | none =>
    let committed : Option Nat ← getKey (.merkleIndex op)
    match committed with
    | some index => clearMerkleLeaf X op index
    | none => pure ()

def getUtxoMerkleRoot : Prog Key.Val ε (Option Hash) := getKey (.merkleNode merkleDepth 0)

/-! ## Blocks -/

/-- `get_block_by_height`, then the hash in its header. -/
def getBlockHashByHeight (height : Nat) : Prog Key.Val StorageError (Option Hash) := do
  let hash : Option Hash ← getKey (.blockHashAt height)
  match hash with
  | none => return none
  | some hash =>
    let block : Option Block ← getKey (.block hash)
    match block with
    | none => .fail (.corruptedData s!"Block hash exists at height {height} but block data missing")
    | some block => return some block.header.blockHash

def latestHeight : Prog Key.Val ε (Option Nat) := getKey .latestHeight

/-- The height check always passes, since `begin_block` has made it. -/
def appendBlock (block : Block) : Prog Key.Val ε Unit := do
  putKey (.blockHashAt block.header.height) block.header.blockHash
  putKey (.block block.header.blockHash) block

end Sled

end SovereignNetwork.Execution
