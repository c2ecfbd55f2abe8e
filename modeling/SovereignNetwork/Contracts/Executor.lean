import SovereignNetwork.Contracts.Storage

/-!
# The contract executor

The changes staged for a block and their commit. The calls that stage them are left out.
-/

namespace SovereignNetwork.Contracts

open Lib Execution

variable {U D : Type}

/-- Hashing and serialization. `U` and `D` are the types of the UBI and the developer grants contracts. -/
structure ContractExternals (U D : Type) where
  blake3 : List UInt8 → Hash
  serializeToken : TokenContract → List UInt8
  serializeUbi : U → List UInt8
  serializeDevGrants : D → List UInt8
  serializeWrites : List Entry → List UInt8

structure PendingStateChanges (U D : Type) where
  tokenChanges : HashMap TokenId TokenContract
  ubiChange : Option U
  devGrantsChange : Option D
  blockHeight : Nat

structure ContractExecutor (U D : Type) where
  storage : Storage
  tokenContracts : HashMap TokenId TokenContract
  pendingChanges : Option (PendingStateChanges U D)

def tokenKey (tokenId : TokenId) : List UInt8 := generateStorageKey "token" (hashBytes tokenId)

namespace PendingStateChanges

variable (X : ContractExternals U D)

def tokenWrites (pending : PendingStateChanges U D) : List Entry :=
  pending.tokenChanges.entries.map fun change => (tokenKey change.1, X.serializeToken change.2)

/-- The writes of a block, in the order of their keys. -/
def writes (pending : PendingStateChanges U D) : List Entry :=
  (pending.tokenWrites X
    ++ (pending.ubiChange.map fun ubi => (ubiInstanceId, X.serializeUbi ubi)).toList
    ++ (pending.devGrantsChange.map fun devGrants => (devGrantsInstanceId, X.serializeDevGrants devGrants)).toList)
  |>.insertionSort fun a b => a.1 ≤ b.1

/-- The `set` calls of a commit: the log entry, the writes, and the log entry again, emptied. -/
def commitSets (pending : PendingStateChanges U D) : List Entry :=
  (makeWalKey pending.blockHeight, X.serializeWrites (pending.writes X)) :: pending.writes X
    ++ [(makeWalKey pending.blockHeight, [])]

def stateRoot (pending : PendingStateChanges U D) : Hash :=
  X.blake3 (((pending.writes X).flatMap fun entry => entry.1 ++ entry.2) ++ toBeBytes 8 pending.blockHeight)

end PendingStateChanges

def ContractExecutor.finalizeBlockState (X : ContractExternals U D) (e : ContractExecutor U D) (blockHeight : Nat) :
    Except String Hash × ContractExecutor U D :=
  match e.pendingChanges with
  | none => (.ok (X.blake3 (bytesOf "EMPTY_STATE_ROOT")), e)
  | some pending =>
    if pending.blockHeight = blockHeight then
      (.ok (pending.stateRoot X), { e with storage := e.storage.setAll (pending.commitSets X), pendingChanges := none })
    else
      let staged := pending.blockHeight
      (.error s!"Pending changes are for block {staged} but attempting to finalize block {blockHeight}", e)

end SovereignNetwork.Contracts
