import SovereignNetwork.Contracts.StateRoot

/-!
# What the hash of a block commits to

The header is hashed with the root of a Merkle tree over the transactions.
-/

namespace SovereignNetwork.Blocks

open Lib Execution
open Contracts (nodeInput hashNodes CollisionFree nodeInput_inj)

structure BlockExternals where
  blake3 : List UInt8 → Hash
  serialize : Transaction → List UInt8

/-! ## Hashes -/

def zeroSignature : Signature := ⟨[], ⟨0, 0, 0⟩⟩

/-- A transaction is hashed with its signature zeroed. -/
def unsigned (tx : Transaction) : Transaction := { tx with signature := zeroSignature }

def headerInput (header : BlockHeader) : List UInt8 :=
  toLeBytes 8 header.height ++ toLeBytes 8 header.timestamp ++ header.previousHash.asSlice ++
    header.dataHelixRoot.asSlice ++ header.verificationHelixRoot.asSlice ++ header.stateRoot.asSlice ++
    header.bftQuorumRoot.asSlice

variable (X : BlockExternals)

def transactionInput (tx : Transaction) : List UInt8 := X.serialize (unsigned tx)

def hashTransaction (tx : Transaction) : Hash := X.blake3 (transactionInput X tx)

def calculateTransactionMerkleRoot (transactions : List Transaction) : Hash :=
  if transactions = [] then 0
  else (Merkle.root (hashNodes X.blake3) (transactions.map (hashTransaction X))).getD 0

def calculateHash (header : BlockHeader) : Hash := X.blake3 (headerInput header)

def verifyMerkleRoot (block : Block) : Bool :=
  calculateTransactionMerkleRoot X block.transactions = block.header.dataHelixRoot

def nodePairs (transactions : List Transaction) : List (Hash × Hash) :=
  let leaves := transactions.map (hashTransaction X)
  Merkle.hashed (hashNodes X.blake3) leaves.length leaves

def inputsUsed (block : Block) : List (List UInt8) :=
  headerInput block.header :: (block.transactions.map (transactionInput X) ++
    (nodePairs X block.transactions).map nodeInput)

variable {X} {block block' : Block}

/-! ## The header -/

theorem length_toLeBytes (n x : Nat) : (toLeBytes n x).length = n := by simp [toLeBytes]

theorem dataHelixRoot_of_headerInput {header header' : BlockHeader} (h : headerInput header = headerInput header') :
    header.dataHelixRoot = header'.dataHelixRoot := by
  simp only [headerInput, List.append_assoc] at h
  have h := (List.append_inj h (by simp [length_toLeBytes])).2
  have h := (List.append_inj h (by simp [length_toLeBytes])).2
  have h := (List.append_inj h (by simp)).2
  exact Bytes.asSlice_inj (List.append_inj h (by simp)).1

/-! ## The transactions -/

/-- What is assumed of BLAKE3 and of the serialization, on what is hashed for two blocks. -/
structure Ideal (X : BlockExternals) (block block' : Block) : Prop where
  collisionFree : CollisionFree X.blake3 (inputsUsed X block ++ inputsUsed X block')
  nonzero : ∀ input ∈ inputsUsed X block ++ inputsUsed X block', X.blake3 input ≠ 0
  injective : ∀ tx ∈ block.transactions ++ block'.transactions, ∀ tx' ∈ block.transactions ++ block'.transactions,
    transactionInput X tx = transactionInput X tx' → unsigned tx = unsigned tx'
  leaf : ∀ tx ∈ block.transactions ++ block'.transactions, (transactionInput X tx).length ≠ 64

namespace Ideal

theorem symm (h : Ideal X block block') : Ideal X block' block := by
  have hinputs : ∀ input, input ∈ inputsUsed X block' ++ inputsUsed X block →
      input ∈ inputsUsed X block ++ inputsUsed X block' := fun input => by
    rw [List.mem_append, List.mem_append]
    exact Or.symm
  have htxs : ∀ tx, tx ∈ block'.transactions ++ block.transactions →
      tx ∈ block.transactions ++ block'.transactions := fun tx => by
    rw [List.mem_append, List.mem_append]
    exact Or.symm
  exact ⟨h.collisionFree.mono hinputs, fun input hi => h.nonzero input (hinputs input hi),
    fun tx ht tx' ht' => h.injective tx (htxs tx ht) tx' (htxs tx' ht'), fun tx ht => h.leaf tx (htxs tx ht)⟩

theorem transactionInput_mem {tx : Transaction} (htx : tx ∈ block.transactions ++ block'.transactions) :
    transactionInput X tx ∈ inputsUsed X block ++ inputsUsed X block' := by
  rcases List.mem_append.mp htx with htx | htx
  · exact List.mem_append_left _ (List.mem_cons_of_mem _ (List.mem_append_left _ (List.mem_map_of_mem htx)))
  · exact List.mem_append_right _ (List.mem_cons_of_mem _ (List.mem_append_left _ (List.mem_map_of_mem htx)))

theorem nodeInput_mem {p : Hash × Hash} (hp : p ∈ nodePairs X block.transactions ++ nodePairs X block'.transactions) :
    nodeInput p ∈ inputsUsed X block ++ inputsUsed X block' := by
  rcases List.mem_append.mp hp with hp | hp
  · exact List.mem_append_left _ (List.mem_cons_of_mem _ (List.mem_append_right _ (List.mem_map_of_mem hp)))
  · exact List.mem_append_right _ (List.mem_cons_of_mem _ (List.mem_append_right _ (List.mem_map_of_mem hp)))

theorem unsigned_of_hash (h : Ideal X block block') {tx tx' : Transaction}
    (htx : tx ∈ block.transactions ++ block'.transactions) (htx' : tx' ∈ block.transactions ++ block'.transactions)
    (heq : hashTransaction X tx = hashTransaction X tx') : unsigned tx = unsigned tx' :=
  h.injective tx htx tx' htx'
    (h.collisionFree _ (transactionInput_mem htx) _ (transactionInput_mem htx') heq)

theorem node_inj (h : Ideal X block block') :
    ∀ p ∈ nodePairs X block.transactions ++ nodePairs X block'.transactions,
      ∀ q ∈ nodePairs X block.transactions ++ nodePairs X block'.transactions,
        hashNodes X.blake3 p.1 p.2 = hashNodes X.blake3 q.1 q.2 → p = q := fun _ hp _ hq heq =>
  nodeInput_inj (h.collisionFree _ (nodeInput_mem hp) _ (nodeInput_mem hq) heq)

theorem node_ne_leaf (h : Ideal X block block') {p : Hash × Hash}
    (hp : p ∈ nodePairs X block.transactions ++ nodePairs X block'.transactions) {tx : Transaction}
    (htx : tx ∈ block.transactions ++ block'.transactions) : hashNodes X.blake3 p.1 p.2 ≠ hashTransaction X tx := by
  intro heq
  have hinput := h.collisionFree _ (nodeInput_mem hp) _ (transactionInput_mem htx) heq
  refine h.leaf tx htx ?_
  rw [← hinput]
  simp [nodeInput]

end Ideal

theorem calculateTransactionMerkleRoot_eq {transactions : List Transaction} (h : transactions ≠ []) :
    some (calculateTransactionMerkleRoot X transactions) =
      Merkle.root (hashNodes X.blake3) (transactions.map (hashTransaction X)) := by
  have hleaves : transactions.map (hashTransaction X) ≠ [] := by simpa using h
  obtain ⟨d, r, hroot, -⟩ := Merkle.exists_root (h := hashNodes X.blake3) hleaves
  rw [calculateTransactionMerkleRoot, if_neg h, hroot, Option.getD_some]

theorem Ideal.root_ne_zero (h : Ideal X block block') (hne : block.transactions ≠ []) :
    calculateTransactionMerkleRoot X block.transactions ≠ 0 := by
  have hleaves : block.transactions.map (hashTransaction X) ≠ [] := by simpa using hne
  obtain ⟨d, r, hroot, hfolds⟩ := Merkle.exists_root (h := hashNodes X.blake3) hleaves
  have heq := calculateTransactionMerkleRoot_eq (X := X) hne
  rw [hroot, Option.some.injEq] at heq
  rw [heq]
  rcases hfolds.root_cases with hmem | ⟨p, hp, rfl⟩
  · obtain ⟨tx, htx, rfl⟩ := List.mem_map.mp hmem
    exact h.nonzero _ (transactionInput_mem (List.mem_append_left _ htx))
  · exact h.nonzero _ (nodeInput_mem (List.mem_append_left _ hp))

/-! ## Equal hashes -/

def body (block : Block) : List Transaction := block.transactions.map unsigned

/-- Bodies of different lengths that are the same with all that the tree doubles, as `[t₁, t₂, t₃]` and
`[t₁, t₂, t₃, t₃]`. -/
def Doubled (block block' : Block) : Prop :=
  (body block).length ≠ (body block').length ∧ Merkle.fill (body block) = Merkle.fill (body block')

instance (block block' : Block) : Decidable (Doubled block block') := inferInstanceAs (Decidable (_ ∧ _))

theorem leaves_eq (X : BlockExternals) (block : Block) :
    block.transactions.map (hashTransaction X) = (body block).map fun tx => X.blake3 (X.serialize tx) := by
  rw [body, List.map_map]
  rfl

namespace Ideal

theorem fill_leaves_iff (h : Ideal X block block') :
    Merkle.fill (block.transactions.map (hashTransaction X)) = Merkle.fill (block'.transactions.map (hashTransaction X)) ↔
      Merkle.fill (body block) = Merkle.fill (body block') := by
  rw [leaves_eq, leaves_eq, Merkle.fill_map, Merkle.fill_map]
  refine ⟨Merkle.eq_of_map_eq fun a ha b hb heq => ?_, congrArg _⟩
  obtain ⟨tx, htx, rfl⟩ := List.mem_map.mp (Merkle.mem_of_mem_fill ha)
  obtain ⟨tx', htx', rfl⟩ := List.mem_map.mp (Merkle.mem_of_mem_fill hb)
  exact h.unsigned_of_hash (List.mem_append_left _ htx) (List.mem_append_right _ htx') heq

theorem fill_ne_nil (hne : block.transactions ≠ []) : Merkle.fill (body block) ≠ [] := by
  intro hnil
  have hbegins := Merkle.prefix_fill (body block)
  rw [hnil, List.prefix_nil] at hbegins
  exact hne (List.map_eq_nil_iff.mp hbegins)

theorem root_eq_iff (h : Ideal X block block') :
    calculateTransactionMerkleRoot X block.transactions = calculateTransactionMerkleRoot X block'.transactions ↔
      Merkle.fill (body block) = Merkle.fill (body block') := by
  have hempty {block : Block} (hnil : block.transactions = []) : Merkle.fill (body block) = [] := by
    rw [body, hnil]
    rfl
  by_cases hne : block.transactions = []
  · by_cases hne' : block'.transactions = []
    · rw [body, body, hne, hne']
      simp
    · rw [calculateTransactionMerkleRoot, if_pos hne, hempty hne]
      exact iff_of_false (h.symm.root_ne_zero hne').symm (fill_ne_nil hne').symm
  · by_cases hne' : block'.transactions = []
    · rw [calculateTransactionMerkleRoot.eq_def X block'.transactions, if_pos hne', hempty hne']
      exact iff_of_false (h.root_ne_zero hne) (fill_ne_nil hne)
    · obtain ⟨tx, htx⟩ := List.exists_mem_of_ne_nil _ hne
      obtain ⟨tx', htx'⟩ := List.exists_mem_of_ne_nil _ hne'
      rw [← Option.some.injEq, calculateTransactionMerkleRoot_eq hne, calculateTransactionMerkleRoot_eq hne',
        ← h.fill_leaves_iff]
      exact Merkle.root_eq_root_iff (List.mem_map_of_mem htx) (List.mem_map_of_mem htx') h.node_inj fun p hp =>
        ⟨h.node_ne_leaf hp (List.mem_append_left _ htx), h.node_ne_leaf hp (List.mem_append_right _ htx')⟩

end Ideal

/-- A block with the hash of a block that verifies its root verifies its own only with the same transactions up to
signatures, exactly if the two bodies are not told apart only by what the tree doubles. -/
theorem block_hash_commits_to_body (X : BlockExternals) (block block' : Block) (hideal : Ideal X block block')
    (hhash : calculateHash X block.header = calculateHash X block'.header) (hroot : verifyMerkleRoot X block) :
    (verifyMerkleRoot X block' → block.transactions.map unsigned = block'.transactions.map unsigned) ↔
      ¬Doubled block block' := by
  have hinput := hideal.collisionFree _ (List.mem_append_left _ List.mem_cons_self) _
    (List.mem_append_right _ List.mem_cons_self) hhash
  have hverify : verifyMerkleRoot X block' ↔ Merkle.fill (body block) = Merkle.fill (body block') := by
    rw [← hideal.root_eq_iff, of_decide_eq_true hroot, dataHelixRoot_of_headerInput hinput, verifyMerkleRoot,
      decide_eq_true_iff, eq_comm]
  rw [hverify]
  constructor
  · rintro hsame ⟨hlength, hfill⟩
    exact hlength (congrArg List.length (hsame hfill))
  · intro hnot hfill
    by_contra hne
    exact hnot ⟨fun hlength => hne (Merkle.eq_of_fill_of_length hfill hlength), hfill⟩

/-! ## Blocks with a repeated transaction -/

def transactionOf (fee : Nat) : Transaction := ⟨1, 1, .transfer, [], [], fee, zeroSignature, [], .other []⟩

/-- Transactions are told apart by their fee here, and inputs by their length and their digits. -/
def sampleExternals : BlockExternals where
  blake3 input := BitVec.ofNat 256 (input.foldl (fun n b => (n * 257 + b.toNat + 1) % (2 ^ 255 - 19)) 7)
  serialize tx := [UInt8.ofNat tx.fee]

def sampleBlock (fees : List Nat) : Block :=
  let transactions := fees.map transactionOf
  ⟨⟨1, 0, calculateTransactionMerkleRoot sampleExternals transactions, 5, 3, 0, 0, 0, 0⟩, transactions⟩

instance (X : BlockExternals) (block block' : Block) : Decidable (Ideal X block block') :=
  decidable_of_iff
    (CollisionFree X.blake3 (inputsUsed X block ++ inputsUsed X block') ∧
      (∀ input ∈ inputsUsed X block ++ inputsUsed X block', X.blake3 input ≠ 0) ∧
      (∀ tx ∈ block.transactions ++ block'.transactions, ∀ tx' ∈ block.transactions ++ block'.transactions,
        transactionInput X tx = transactionInput X tx' → unsigned tx = unsigned tx') ∧
      ∀ tx ∈ block.transactions ++ block'.transactions, (transactionInput X tx).length ≠ 64)
    ⟨fun h => ⟨h.1, h.2.1, h.2.2.1, h.2.2.2⟩, fun h => ⟨h.collisionFree, h.nonzero, h.injective, h.leaf⟩⟩

def resigned (block : Block) : Block :=
  { block with transactions := block.transactions.map fun tx => { tx with signature := ⟨[1], ⟨0, 0, 1⟩⟩ } }

theorem block_hash_commits_to_three_transactions :
    (sampleBlock [1, 1, 2]).transactions ≠ (resigned (sampleBlock [1, 1, 2])).transactions ∧
      (sampleBlock [1, 1, 2]).transactions.map unsigned = (resigned (sampleBlock [1, 1, 2])).transactions.map unsigned :=
  ⟨by decide +kernel, block_hash_commits_to_body sampleExternals (sampleBlock [1, 1, 2]) (resigned (sampleBlock [1, 1, 2]))
    (by decide +kernel) rfl (by decide +kernel) |>.mpr (by decide +kernel) (by decide +kernel)⟩

/-- The block with the third transaction twice has the root and the hash of the block of three. -/
theorem block_hash_of_repeated_transaction :
    Ideal sampleExternals (sampleBlock [1, 2, 3]) (sampleBlock [1, 2, 3, 3]) ∧
      calculateHash sampleExternals (sampleBlock [1, 2, 3]).header =
        calculateHash sampleExternals (sampleBlock [1, 2, 3, 3]).header ∧
      verifyMerkleRoot sampleExternals (sampleBlock [1, 2, 3]) ∧
      verifyMerkleRoot sampleExternals (sampleBlock [1, 2, 3, 3]) ∧
      (sampleBlock [1, 2, 3]).transactions.length ≠ (sampleBlock [1, 2, 3, 3]).transactions.length := by
  decide +kernel

end SovereignNetwork.Blocks
