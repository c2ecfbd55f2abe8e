import SovereignNetwork.Lib.Except
import SovereignNetwork.Lib.PaddedMerkle
import SovereignNetwork.Lib.Run
import SovereignNetwork.Types

/-!
# Merkle trees with membership proofs

A node without a neighbour is hashed with the zero block, and the zero block may be a leaf.
-/

namespace SovereignNetwork.Proofs

open Lib

structure ZkMerkleTree where
  root : Hash
  height : UInt8
  leaves : List Hash
  deriving DecidableEq

structure MerkleProof where
  leaf : Hash
  path : List Hash
  indices : List Bool

inductive VerificationResult
  | valid (circuitId : String) (verificationTimeMs : Nat) (publicInputs : List Nat)
  | invalid (reason : String)
  deriving DecidableEq

def zeroBlock : Hash := 0

namespace MerkleProof

def depth (proof : MerkleProof) : Nat := proof.path.length

def isValidStructure (proof : MerkleProof) : Bool := proof.path.length = proof.indices.length

end MerkleProof

variable (H : List UInt8 → Hash)

def hashMerklePair (left right : Hash) : Hash := H (left.asSlice ++ right.asSlice)

/-- The loop of the verifiers, which goes as far as both lists. `verifyProof` does not compare their lengths. -/
def walkPath (leaf : Hash) (path : List Hash) (indices : List Bool) : Hash :=
  PaddedMerkle.walk (hashMerklePair H) leaf (indices.zip path)

def computeRootFromProof (leaf : Hash) (siblings : List Hash) (indices : List Bool) : Except String Hash :=
  if siblings.length ≠ indices.length then .error "Siblings and indices length mismatch"
  else .ok (walkPath H leaf siblings indices)

def verifyProofAgainstRoot (proof : MerkleProof) (expectedRoot : Hash) : Except String Bool := do
  if !proof.isValidStructure then
    return false
  let computedRoot ← computeRootFromProof H proof.leaf proof.path proof.indices
  pure (computedRoot = expectedRoot)

namespace ZkMerkleTree

def new (height : UInt8) : ZkMerkleTree := ⟨zeroBlock, height, []⟩

/-- The shift takes the height modulo the number of bits of a word. -/
def capacity (tree : ZkMerkleTree) : Nat := 1 <<< (tree.height.toNat % 64)

def updateRoot (tree : ZkMerkleTree) : ZkMerkleTree :=
  if tree.leaves = [] then { tree with root := zeroBlock }
  else { tree with root := PaddedMerkle.root (hashMerklePair H) zeroBlock tree.leaves }

def addLeaf (tree : ZkMerkleTree) (leaf : Hash) : Except String ZkMerkleTree :=
  if tree.capacity ≤ tree.leaves.length then .error "Tree is full"
  else .ok (updateRoot H { tree with leaves := tree.leaves ++ [leaf] })

def addLeaves (tree : ZkMerkleTree) (leaves : List Hash) : Except String ZkMerkleTree :=
  if tree.capacity < tree.leaves.length + leaves.length then .error "Too many leaves for tree capacity"
  else .ok (updateRoot H { tree with leaves := tree.leaves ++ leaves })

def verifyProof (tree : ZkMerkleTree) (proof : MerkleProof) : Bool :=
  walkPath H proof.leaf proof.path proof.indices = tree.root

def verifyProofDetailed (tree : ZkMerkleTree) (proof : MerkleProof) : VerificationResult :=
  if !proof.isValidStructure then .invalid "Invalid proof format"
  else if tree.height.toNat < proof.depth then .invalid "Invalid proof format"
  else if tree.verifyProof H proof then .valid "merkle_proof" 0 []
  else .invalid "Merkle verification failed"

/-! ## Building a tree -/

inductive Call
  | addLeaf (leaf : Hash)
  | addLeaves (leaves : List Hash)

/-- A failed call leaves the tree as it is. -/
def step (tree : ZkMerkleTree) : Call → ZkMerkleTree
  | .addLeaf leaf => (tree.addLeaf H leaf).toOption.getD tree
  | .addLeaves leaves => (tree.addLeaves H leaves).toOption.getD tree

def built (height : UInt8) (calls : List Call) : ZkMerkleTree := run (step H) (new height) calls

variable {H} {tree tree' : ZkMerkleTree} {proof : MerkleProof}

def Rooted (H : List UInt8 → Hash) (tree : ZkMerkleTree) : Prop :=
  tree.root = PaddedMerkle.root (hashMerklePair H) zeroBlock tree.leaves

theorem rooted_updateRoot (tree : ZkMerkleTree) : Rooted H (updateRoot H tree) := by
  unfold updateRoot
  split
  · rename_i hnil
    rw [Rooted, hnil]
    rfl
  · rfl

theorem rooted_step (h : Rooted H tree) (call : Call) : Rooted H (step H tree call) := by
  cases call with
  | addLeaf leaf =>
    rw [step, addLeaf]
    split
    · exact h
    · exact rooted_updateRoot _
  | addLeaves leaves =>
    rw [step, addLeaves]
    split
    · exact h
    · exact rooted_updateRoot _

theorem rooted_run (calls : List Call) (h : Rooted H tree) : Rooted H (run (step H) tree calls) := by
  induction calls generalizing tree with
  | nil => exact h
  | cons call calls ih => exact ih (rooted_step h call)

theorem rooted_built (height : UInt8) (calls : List Call) : Rooted H (built H height calls) := rooted_run calls rfl

/-! ## What is hashed -/

def hashedPairs (H : List UInt8 → Hash) (tree : ZkMerkleTree) : List (Hash × Hash) :=
  PaddedMerkle.hashed (hashMerklePair H) zeroBlock tree.leaves.length tree.leaves

end ZkMerkleTree

def MerkleProof.hashedPairs (proof : MerkleProof) : List (Hash × Hash) :=
  PaddedMerkle.walked (hashMerklePair H) proof.leaf (proof.indices.zip proof.path)

/-- No two of the pairs have the same hash, and none has one of the blocks as its hash. -/
structure Separated (pairs : List (Hash × Hash)) (blocks : List Hash) : Prop where
  collisionFree : ∀ p ∈ pairs, ∀ q ∈ pairs, hashMerklePair H p.1 p.2 = hashMerklePair H q.1 q.2 → p = q
  notBlock : ∀ p ∈ pairs, hashMerklePair H p.1 p.2 ∉ blocks

instance (pairs : List (Hash × Hash)) (blocks : List Hash) : Decidable (Separated H pairs blocks) :=
  decidable_of_iff
    ((∀ p ∈ pairs, ∀ q ∈ pairs, hashMerklePair H p.1 p.2 = hashMerklePair H q.1 q.2 → p = q) ∧
      ∀ p ∈ pairs, hashMerklePair H p.1 p.2 ∉ blocks)
    ⟨fun h => ⟨h.1, h.2⟩, fun h => ⟨h.1, h.2⟩⟩

def MerkleProof.Accepted (tree : ZkMerkleTree) (proof : MerkleProof) : Prop :=
  verifyProofAgainstRoot H proof tree.root = .ok true ∨
    ∃ circuitId time inputs, tree.verifyProofDetailed H proof = .valid circuitId time inputs

variable {H} {tree tree' : ZkMerkleTree} {proof : MerkleProof}

theorem Separated.ne {pairs : List (Hash × Hash)} {blocks : List Hash} {p : Hash × Hash} {block : Hash}
    (h : Separated H pairs blocks) (hp : p ∈ pairs) (hblock : block ∈ blocks) : hashMerklePair H p.1 p.2 ≠ block :=
  fun heq => h.notBlock p hp (heq ▸ hblock)

theorem MerkleProof.Accepted.walk (h : proof.Accepted H tree) :
    proof.path.length = proof.indices.length ∧ walkPath H proof.leaf proof.path proof.indices = tree.root := by
  rcases h with h | ⟨circuitId, time, inputs, h⟩
  · unfold verifyProofAgainstRoot at h
    split at h
    · cases h
    · rename_i hvalid
      have hlength : proof.path.length = proof.indices.length := by
        simpa [MerkleProof.isValidStructure] using hvalid
      rw [computeRootFromProof, if_neg (not_not.mpr hlength)] at h
      exact ⟨hlength, of_decide_eq_true (Except.ok.inj h)⟩
  · unfold ZkMerkleTree.verifyProofDetailed at h
    split at h
    · cases h
    · rename_i hvalid
      have hlength : proof.path.length = proof.indices.length := by
        simpa [MerkleProof.isValidStructure] using hvalid
      split at h
      · cases h
      · split at h
        · rename_i hverify
          exact ⟨hlength, of_decide_eq_true hverify⟩
        · cases h

/-! ## Soundness -/

/-- The proof goes from the padding of a level to the root. -/
structure MerkleProof.OpensPadding (H : List UInt8 → Hash) (tree : ZkMerkleTree) (proof : MerkleProof) : Prop where
  length : proof.path.length = proof.indices.length
  leaf : proof.leaf = zeroBlock
  walk : PaddedMerkle.PadWalk (hashMerklePair H) zeroBlock tree.leaves (proof.indices.zip proof.path)

theorem MerkleProof.OpensPadding.accepted (h : proof.OpensPadding H tree) (hroot : tree.Rooted H) :
    proof.Accepted H tree := by
  have hvalid : proof.isValidStructure = true := decide_eq_true h.length
  have hwalk : walkPath H proof.leaf proof.path proof.indices = tree.root := by
    rw [walkPath, h.leaf, h.walk.walk_eq_root, hroot]
  left
  simp [verifyProofAgainstRoot, hvalid, computeRootFromProof, h.length, hwalk]

theorem leaf_or_padding_of_accepted (hroot : tree.Rooted H)
    (hsep : Separated H (tree.hashedPairs H ++ proof.hashedPairs H) (zeroBlock :: proof.leaf :: tree.leaves))
    (h : proof.Accepted H tree) :
    tree.leaves[PaddedMerkle.position proof.indices]? = some proof.leaf ∨ proof.OpensPadding H tree := by
  obtain ⟨hlength, hwalk⟩ := h.walk
  by_cases hnil : tree.leaves = []
  · -- the root is the zero block, which is no hash
    rw [hroot, hnil] at hwalk
    by_cases hpath : proof.indices.zip proof.path = []
    · rw [walkPath, hpath] at hwalk
      exact .inr ⟨hlength, hwalk, by rw [hnil, hpath]; exact .empty⟩
    · obtain ⟨p, hp, heq⟩ := PaddedMerkle.exists_walked (h := hashMerklePair H) (x := proof.leaf) hpath
      exact absurd (heq.trans hwalk) (hsep.ne (List.mem_append_right _ hp) List.mem_cons_self)
  · obtain ⟨d, hf⟩ := PaddedMerkle.folds_root (hashMerklePair H) zeroBlock hnil
    have hget := (hf.mono fun p hp => List.mem_append_left _ hp).getElem?_of_walk
      (fun p q hp hq => hsep.collisionFree p hp q hq) (fun p hp => hsep.ne hp List.mem_cons_self)
      (hwalk.trans hroot) (fun p hp => List.mem_append_right _ hp)
      (fun p hp => hsep.ne hp (List.mem_cons_of_mem _ List.mem_cons_self))
      fun p hp hmem => hsep.notBlock p hp (List.mem_cons_of_mem _ (List.mem_cons_of_mem _ hmem))
    rw [List.map_fst_zip (Nat.le_of_eq hlength.symm)] at hget
    exact hget.imp_right fun ⟨hleaf, hpad⟩ => ⟨hlength, hleaf, hpad⟩

theorem leaves_eq_singleton {pairs : List (Hash × Hash)} {blocks : List Hash} (hroot : tree.Rooted H)
    (hsep : Separated H pairs blocks) (hblocks : zeroBlock ∈ blocks) (hpairs : ∀ p ∈ tree.hashedPairs H, p ∈ pairs)
    (hnil : tree.leaves ≠ []) (heq : tree.root = zeroBlock) : tree.leaves = [zeroBlock] := by
  obtain ⟨d, hf⟩ := PaddedMerkle.folds_root (hashMerklePair H) zeroBlock hnil
  rw [← hroot, heq] at hf
  exact hf.eq_singleton_of_ne fun p hp => hsep.ne (hpairs p hp) hblocks

theorem leaves_eq_or_padded_of_root (hroot : tree.Rooted H) (hroot' : tree'.Rooted H)
    (hsep : Separated H (tree.hashedPairs H ++ tree'.hashedPairs H) (zeroBlock :: (tree.leaves ++ tree'.leaves)))
    (heq : tree.root = tree'.root) :
    tree.leaves = tree'.leaves ∨ PaddedMerkle.Padded zeroBlock tree.leaves tree'.leaves ∨
      PaddedMerkle.Padded zeroBlock tree'.leaves tree.leaves := by
  have hone := leaves_eq_singleton hroot hsep List.mem_cons_self fun p hp => List.mem_append_left _ hp
  have hone' := leaves_eq_singleton hroot' hsep List.mem_cons_self fun p hp => List.mem_append_right _ hp
  by_cases hnil : tree.leaves = []
  · by_cases hnil' : tree'.leaves = []
    · exact .inl (hnil.trans hnil'.symm)
    · have hzero : tree.root = zeroBlock := by rw [hroot, hnil]; rfl
      exact .inr (.inl ⟨by rw [hone' hnil' (heq ▸ hzero), hnil]; rfl, .inl hnil⟩)
  by_cases hnil' : tree'.leaves = []
  · have hzero : tree'.root = zeroBlock := by rw [hroot', hnil']; rfl
    exact .inr (.inr ⟨by rw [hone hnil (heq ▸ hzero), hnil']; rfl, .inl hnil'⟩)
  obtain ⟨d, hf⟩ := PaddedMerkle.folds_root (hashMerklePair H) zeroBlock hnil
  obtain ⟨d', hf'⟩ := PaddedMerkle.folds_root (hashMerklePair H) zeroBlock hnil'
  rw [← hroot] at hf
  rw [← hroot', ← heq] at hf'
  exact (hf.mono fun p hp => List.mem_append_left _ hp).inj
    (fun p q hp hq => hsep.collisionFree p hp q hq) (fun p hp => hsep.ne hp List.mem_cons_self)
    (hf'.mono fun p hp => List.mem_append_right _ hp)
    (fun p hp hmem => hsep.notBlock p hp (List.mem_cons_of_mem _ (List.mem_append_left _ hmem)))
    fun p hp hmem => hsep.notBlock p hp (List.mem_cons_of_mem _ (List.mem_append_right _ hmem))

theorem not_padded_of_root (hroot : tree.Rooted H) (hroot' : tree'.Rooted H)
    (h : tree.root = tree'.root → tree.leaves = tree'.leaves) :
    ¬PaddedMerkle.Padded zeroBlock tree.leaves tree'.leaves := by
  intro hpadded
  have heq := h (hroot.trans (hpadded.root_eq.trans hroot'.symm))
  have hlength := congrArg List.length hpadded.1
  rw [heq, List.length_append] at hlength
  exact absurd hlength (by simp)

/-- A proof that is accepted is one of a leaf, at the place it names, unless it opens the padding of a level. Trees with the
same root hold the same leaves, unless one is the other with its padding. -/
theorem membership_proofs_sound (H : List UInt8 → Hash) (height : UInt8) (calls : List ZkMerkleTree.Call) :
    (∀ proof : MerkleProof,
      Separated H ((ZkMerkleTree.built H height calls).hashedPairs H ++ proof.hashedPairs H)
        (zeroBlock :: proof.leaf :: (ZkMerkleTree.built H height calls).leaves) →
      ((proof.Accepted H (ZkMerkleTree.built H height calls) →
          (ZkMerkleTree.built H height calls).leaves[PaddedMerkle.position proof.indices]? = some proof.leaf) ↔
        (proof.OpensPadding H (ZkMerkleTree.built H height calls) →
          (ZkMerkleTree.built H height calls).leaves[PaddedMerkle.position proof.indices]? = some zeroBlock))) ∧
    ∀ (height' : UInt8) (calls' : List ZkMerkleTree.Call),
      Separated H
        ((ZkMerkleTree.built H height calls).hashedPairs H ++ (ZkMerkleTree.built H height' calls').hashedPairs H)
        (zeroBlock :: ((ZkMerkleTree.built H height calls).leaves ++ (ZkMerkleTree.built H height' calls').leaves)) →
      (((ZkMerkleTree.built H height calls).root = (ZkMerkleTree.built H height' calls').root →
          (ZkMerkleTree.built H height calls).leaves = (ZkMerkleTree.built H height' calls').leaves) ↔
        ¬PaddedMerkle.Padded zeroBlock (ZkMerkleTree.built H height calls).leaves
            (ZkMerkleTree.built H height' calls').leaves ∧
          ¬PaddedMerkle.Padded zeroBlock (ZkMerkleTree.built H height' calls').leaves
            (ZkMerkleTree.built H height calls).leaves) := by
  have hroot := ZkMerkleTree.rooted_built (H := H) height calls
  refine ⟨fun proof hsep => ⟨fun h hpad => ?_, fun h haccepted => ?_⟩, fun height' calls' hsep => ?_⟩
  · rw [h (hpad.accepted hroot), hpad.leaf]
  · rcases leaf_or_padding_of_accepted hroot hsep haccepted with hleaf | hpad
    · exact hleaf
    · rw [h hpad, hpad.leaf]
  · have hroot' := ZkMerkleTree.rooted_built (H := H) height' calls'
    refine ⟨fun h => ⟨not_padded_of_root hroot hroot' h, not_padded_of_root hroot' hroot fun heq => (h heq.symm).symm⟩, ?_⟩
    exact fun hnot heq => (leaves_eq_or_padded_of_root hroot hroot' hsep heq).resolve_right (not_or.mpr hnot)

/-! ## The padding -/

def sampleHash (bytes : List UInt8) : Hash :=
  BitVec.ofNat _ (bytes.foldl (fun acc byte => acc * 31 + byte.toNat + 1) 7)

def threeLeaves : List ZkMerkleTree.Call := [.addLeaf 1, .addLeaves [2, 3]]

def secondLeafProof : MerkleProof := ⟨2, [1, hashMerklePair sampleHash 3 zeroBlock], [true, false]⟩

theorem membership_proofs_sound_second_leaf :
    (ZkMerkleTree.built sampleHash 2 threeLeaves).leaves[PaddedMerkle.position secondLeafProof.indices]? =
        some secondLeafProof.leaf ∧
      ((ZkMerkleTree.built sampleHash 2 threeLeaves).root = (ZkMerkleTree.built sampleHash 3 [.addLeaves [1, 2, 3]]).root →
        (ZkMerkleTree.built sampleHash 2 threeLeaves).leaves =
          (ZkMerkleTree.built sampleHash 3 [.addLeaves [1, 2, 3]]).leaves) :=
  ⟨((membership_proofs_sound sampleHash 2 threeLeaves).1 secondLeafProof (by decide +kernel)).mpr
      (fun hpad => absurd hpad.leaf (by decide)) (.inl (by decide +kernel)),
    ((membership_proofs_sound sampleHash 2 threeLeaves).2 3 [.addLeaves [1, 2, 3]] (by decide +kernel)).mpr
      ⟨fun hpad => absurd hpad.1 (by decide +kernel), fun hpad => absurd hpad.1 (by decide +kernel)⟩⟩

def paddingProof : MerkleProof := ⟨zeroBlock, [3, hashMerklePair sampleHash 1 2], [true, true]⟩

/-- The padding of three leaves has a proof, and three leaves have the root of four. -/
theorem padding_has_proof :
    Separated sampleHash
        ((ZkMerkleTree.built sampleHash 2 threeLeaves).hashedPairs sampleHash ++ paddingProof.hashedPairs sampleHash)
        (zeroBlock :: paddingProof.leaf :: (ZkMerkleTree.built sampleHash 2 threeLeaves).leaves) ∧
      verifyProofAgainstRoot sampleHash paddingProof (ZkMerkleTree.built sampleHash 2 threeLeaves).root = .ok true ∧
      (ZkMerkleTree.built sampleHash 2 threeLeaves).verifyProofDetailed sampleHash paddingProof =
        .valid "merkle_proof" 0 [] ∧
      paddingProof.leaf ∉ (ZkMerkleTree.built sampleHash 2 threeLeaves).leaves ∧
      Separated sampleHash
        ((ZkMerkleTree.built sampleHash 2 threeLeaves).hashedPairs sampleHash ++
          (ZkMerkleTree.built sampleHash 2 (threeLeaves ++ [.addLeaf zeroBlock])).hashedPairs sampleHash)
        (zeroBlock :: ((ZkMerkleTree.built sampleHash 2 threeLeaves).leaves ++
          (ZkMerkleTree.built sampleHash 2 (threeLeaves ++ [.addLeaf zeroBlock])).leaves)) ∧
      (ZkMerkleTree.built sampleHash 2 threeLeaves).root =
        (ZkMerkleTree.built sampleHash 2 (threeLeaves ++ [.addLeaf zeroBlock])).root ∧
      (ZkMerkleTree.built sampleHash 2 threeLeaves).leaves ≠
        (ZkMerkleTree.built sampleHash 2 (threeLeaves ++ [.addLeaf zeroBlock])).leaves := by
  decide +kernel

end SovereignNetwork.Proofs
