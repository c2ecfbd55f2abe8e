import SovereignNetwork.Contracts.Storage
import SovereignNetwork.Lib.Merkle

/-!
# The state root

Versions are stored under the eight bytes of their height. The state root of a height scans for the text of its decimal
digits.
-/

namespace SovereignNetwork.Contracts

open Lib Execution

/-! ## Versions -/

structure Version where
  blockHeight : Nat
  key : List UInt8
  value : List UInt8

def Storage.storeVersioned (s : Storage) (version : Version) : Storage :=
  s.set (makeVersionedKey version.blockHeight version.key, version.value)

def Storage.getVersioned (s : Storage) (key : List UInt8) (blockHeight : Nat) : Option (List UInt8) :=
  s.lookup (makeVersionedKey blockHeight key)

def curveFields : List String :=
  ["circulating_cbe_supply", "locked_reserve_sov", "liquid_reserve_sov", "sovereign_treasury_sov", "sovrn_total_supply"]

def entryInput (entry : Entry) : List UInt8 := entry.1 ++ entry.2

def fieldInput (field : String) : List UInt8 := bytesOf field ++ toLeBytes 16 0

/-- The entries scanned for a height, sorted once more. -/
def stateEntries (s : Storage) (blockHeight : Nat) : List Entry :=
  (s.scanPrefix (stateAt blockHeight)).insertionSort fun a b => a.1 ≤ b.1

def leafInputs (s : Storage) (blockHeight : Nat) : List (List UInt8) :=
  (stateEntries s blockHeight).map entryInput ++ curveFields.map fieldInput

variable (H : List UInt8 → Hash)

def nodeInput (p : Hash × Hash) : List UInt8 := Bytes.asSlice p.1 ++ Bytes.asSlice p.2

def hashNodes (left right : Hash) : Hash := H (nodeInput (left, right))

def emptyRoot : Hash := H (bytesOf "EMPTY_STATE_ROOT")

/-- The loop ends at once on a single leaf. -/
def merkleRoot (leafHashes : List Hash) : Hash := (Merkle.root (hashNodes H) leafHashes).getD (emptyRoot H)

def inputsUsed (s : Storage) (blockHeight : Nat) : List (List UInt8) :=
  let leaves := (leafInputs s blockHeight).map H
  leafInputs s blockHeight ++ (Merkle.hashed (hashNodes H) leaves.length leaves).map nodeInput

def CollisionFree (inputs : List (List UInt8)) : Prop := ∀ a ∈ inputs, ∀ b ∈ inputs, H a = H b → a = b

instance (inputs : List (List UInt8)) : Decidable (CollisionFree H inputs) :=
  inferInstanceAs (Decidable (∀ a ∈ inputs, ∀ b ∈ inputs, H a = H b → a = b))

variable {H} {s s' : Storage} {blockHeight : Nat}

theorem CollisionFree.mono {inputs inputs' : List (List UInt8)} (h : CollisionFree H inputs)
    (hsub : ∀ a ∈ inputs', a ∈ inputs) : CollisionFree H inputs' :=
  fun a ha b hb => h a (hsub a ha) b (hsub b hb)

theorem nodeInput_inj {p q : Hash × Hash} (h : nodeInput p = nodeInput q) : p = q := by
  have hlength : p.1.asSlice.length = q.1.asSlice.length := by simp
  obtain ⟨hleft, hright⟩ := List.append_inj h hlength
  exact Prod.ext (Bytes.asSlice_inj hleft) (Bytes.asSlice_inj hright)

/-! ## The last leaf -/

end SovereignNetwork.Contracts
