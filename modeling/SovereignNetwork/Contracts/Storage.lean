import Mathlib.Data.List.Sort
import SovereignNetwork.Execution.Bytes

/-!
# Contract storage

The sled tree of `PersistentStorage`, the keys written into it and recovery from the write-ahead log. Each call of the
tree is atomic. Errors of the disk are left out.
-/

namespace SovereignNetwork.Contracts

open Lib Execution

abbrev Entry := List UInt8 × List UInt8

abbrev Storage := HashMap (List UInt8) (List UInt8)

namespace Storage

def set (s : Storage) (entry : Entry) : Storage := AList.insert entry.1 entry.2 s

def delete (s : Storage) (key : List UInt8) : Storage := AList.erase key s

/-- The tree iterates in the order of its keys. -/
def scanPrefix (s : Storage) (start : List UInt8) : List Entry :=
  ((s.entries.map fun e => (e.1, e.2)).filter fun e => start.isPrefixOf e.1).insertionSort fun a b => a.1 ≤ b.1

def deletePrefix (s : Storage) (start : List UInt8) : Storage := HashMap.retain (fun key _ => !start.isPrefixOf key) s

def setAll (s : Storage) (entries : List Entry) : Storage := entries.foldl set s

end Storage

/-! ## Keys -/

def generateStorageKey (start : String) (identifier : List UInt8) : List UInt8 :=
  bytesOf start ++ bytesOf ":" ++ bytesOf (hexEncode identifier)

def makeWalKey (height : Nat) : List UInt8 := bytesOf "wal:" ++ toBeBytes 8 height

def makeVersionedKey (blockHeight : Nat) (key : List UInt8) : List UInt8 :=
  bytesOf "state:" ++ toBeBytes 8 blockHeight ++ bytesOf ":" ++ key

def lastFinalizedKey : List UInt8 := bytesOf "meta:last_finalized_height"

def ubiInstanceId : List UInt8 := bytesOf "contract:ubi:v1"

def devGrantsInstanceId : List UInt8 := bytesOf "contract:dev_grants:v1"

/-- Text of a block's versions as recovery and the state root write it. The height is in decimal. -/
def stateAt (height : Nat) : List UInt8 := bytesOf s!"state:{height}:"

theorem stateAt_eq (height : Nat) : stateAt height = bytesOf "state:" ++ bytesOf s!"{height}:" := by
  rw [← bytesOf_append]
  simp only [stateAt, toString, String.append_assoc]

/-! ## Recovery -/

inductive StorageError
  | walRecovery (message : String)
  deriving DecidableEq

structure RecoveryStats where
  walEntriesFound : Nat
  entriesRecovered : Nat
  entriesDiscarded : Nat
  lastFinalizedHeight : Option Nat
  deriving DecidableEq

namespace Storage

def getLastFinalizedHeight (s : Storage) : Option Nat :=
  (AList.lookup lastFinalizedKey s).bind fun bytes => if bytes.length = 8 then some (fromBeBytes bytes) else none

def discardIncompleteBlock (s : Storage) (height : Nat) : Storage := s.deletePrefix (stateAt height)

end Storage

def extractHeightFromWalKey (walKey : List UInt8) : Except StorageError Nat := do
  if !(bytesOf "wal:").isPrefixOf walKey then
    throw (.walRecovery "Invalid WAL key format")
  let heightBytes := walKey.drop 4
  if heightBytes.length ≠ 8 then
    throw (.walRecovery "Invalid WAL height encoding")
  return fromBeBytes heightBytes

/-- The loop over the log. A malformed key ends it, with the entries before it gone. -/
def recoverEntries (lastFinalized : Nat) :
    List Entry → RecoveryStats → Storage → Except StorageError RecoveryStats × Storage
  | [], stats, s => (.ok stats, s)
  | (walKey, walData) :: entries, stats, s =>
    match extractHeightFromWalKey walKey with
    | .error e => (.error e, s)
    | .ok height =>
      if height ≤ lastFinalized then
        recoverEntries lastFinalized entries { stats with entriesRecovered := stats.entriesRecovered + 1 }
          (s.delete walKey)
      else if walData.isEmpty then
        recoverEntries lastFinalized entries { stats with entriesRecovered := stats.entriesRecovered + 1 }
          (s.delete walKey)
      else
        recoverEntries lastFinalized entries { stats with entriesDiscarded := stats.entriesDiscarded + 1 }
          ((s.discardIncompleteBlock height).delete walKey)

def recoverFromCrash (s : Storage) : Except StorageError RecoveryStats × Storage :=
  let lastFinalizedHeight := s.getLastFinalizedHeight
  let walEntries := s.scanPrefix (bytesOf "wal:")
  recoverEntries (lastFinalizedHeight.getD 0) walEntries ⟨walEntries.length, 0, 0, lastFinalizedHeight⟩ s

/-! ## Reading -/

namespace Storage

variable {s : Storage} {key : List UInt8} {entries : List Entry}

theorem lookup_set (s : Storage) (entry : Entry) (key : List UInt8) :
    (s.set entry).lookup key = if key = entry.1 then some entry.2 else s.lookup key :=
  HashMap.lookup_insert_eq_ite s entry.1 key entry.2

theorem lookup_delete (s : Storage) (key key' : List UInt8) :
    (s.delete key).lookup key' = if key' = key then none else s.lookup key' :=
  HashMap.lookup_erase_eq_ite s key key'

theorem lookup_deletePrefix_of_not (s : Storage) {start : List UInt8} (h : ¬start <+: key) :
    (s.deletePrefix start).lookup key = s.lookup key := by
  have hkept : start.isPrefixOf key = false := by
    rwa [← Bool.not_eq_true, List.isPrefixOf_iff_prefix]
  rw [deletePrefix, HashMap.lookup_retain]
  cases s.lookup key <;> simp [hkept]

theorem lookup_deletePrefix_of_none {start : List UInt8} (h : s.lookup key = none) :
    (s.deletePrefix start).lookup key = none := by
  simp [deletePrefix, h]

theorem mem_scanPrefix {start : List UInt8} {e : Entry} :
    e ∈ s.scanPrefix start ↔ s.lookup e.1 = some e.2 ∧ start <+: e.1 := by
  obtain ⟨k, v⟩ := e
  rw [← HashMap.mem_entries_iff]
  simp [scanPrefix]

/-! ## Several writes -/

theorem isSome_lookup_setAll (s : Storage) (h : (s.lookup key).isSome) : ((s.setAll entries).lookup key).isSome := by
  induction entries generalizing s with
  | nil => exact h
  | cons e entries ih =>
    refine ih (s.set e) ?_
    rw [lookup_set]
    split
    · rfl
    · exact h

theorem setAll_append (s : Storage) (entries entries' : List Entry) :
    s.setAll (entries ++ entries') = (s.setAll entries).setAll entries' := by
  simp [setAll]

theorem lookup_setAll_of_notMem (s : Storage) (h : key ∉ entries.map Prod.fst) :
    (s.setAll entries).lookup key = s.lookup key := by
  induction entries generalizing s with
  | nil => rfl
  | cons e entries ih =>
    simp only [List.map_cons, List.mem_cons, not_or] at h
    show ((s.set e).setAll entries).lookup key = s.lookup key
    rw [ih _ h.2, lookup_set, if_neg h.1]

theorem lookup_setAll_of_mem (s : Storage) {value : List UInt8} (hkeys : (entries.map Prod.fst).Nodup)
    (h : (key, value) ∈ entries) : (s.setAll entries).lookup key = some value := by
  induction entries generalizing s with
  | nil => cases h
  | cons e entries ih =>
    rw [List.map_cons, List.nodup_cons] at hkeys
    show ((s.set e).setAll entries).lookup key = some value
    cases h with
    | head => rw [lookup_setAll_of_notMem _ hkeys.1, lookup_set, if_pos rfl]
    | tail _ h => exact ih _ hkeys.2 h

theorem lookup_setAll_of_stored (s : Storage) (hkeys : (entries.map Prod.fst).Nodup)
    (h : ∀ e ∈ entries, s.lookup e.1 = some e.2) (key : List UInt8) :
    (s.setAll entries).lookup key = s.lookup key := by
  by_cases hkey : key ∈ entries.map Prod.fst
  · obtain ⟨e, he, rfl⟩ := List.mem_map.mp hkey
    rw [lookup_setAll_of_mem s hkeys he, h e he]
  · exact lookup_setAll_of_notMem s hkey

end Storage

end SovereignNetwork.Contracts
