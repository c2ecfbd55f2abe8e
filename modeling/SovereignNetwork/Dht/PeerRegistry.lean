import Mathlib.Data.Finset.Card
import SovereignNetwork.Dht.NodeId
import SovereignNetwork.Lib.HashMap

/-!
# The peer registry of the DHT

Peers are kept under their node id. The registry carries both facts: the key of an entry is the id of its node, and a
bucket lists the entries that name it.
-/

namespace SovereignNetwork.Dht

open Lib

def numKBuckets : Nat := 160

def maxBucketIndex : Nat := numKBuckets - 1

def defaultMaxFailedAttempts : Nat := 3

def defaultRateLimitPerMinute : Nat := 100

def rateLimitWindowSecs : Nat := 60

def sequenceWraparoundWindow : Nat := 1024

inductive SequenceError where
  | replayDetected (sequence lastSequence : Nat)
  | peerNotFound
  deriving DecidableEq, Repr

structure DhtPeerIdentity where
  nodeId : NodeId
  deriving DecidableEq

structure DhtNode where
  peer : DhtPeerIdentity
  addresses : List String
  lastSeen : Nat
  reputation : Nat
  deriving DecidableEq

structure DhtPeerEntry where
  node : DhtNode
  distance : Nat
  bucketIndex : Nat
  lastContact : Nat
  failedAttempts : Nat
  lastSequence : Option Nat
  deriving DecidableEq

/-! ## The rate limiter -/

structure DhtRateLimiter where
  operationTimestamps : List Nat
  maxOperations : Nat
  windowSecs : Nat

def DhtRateLimiter.new (maxOperations windowSecs : Nat) : DhtRateLimiter := ⟨[], maxOperations, windowSecs⟩

/-- The times outside the window are dropped also when the operation is refused. -/
def DhtRateLimiter.checkAndRecord (l : DhtRateLimiter) (now : Nat) : Bool × DhtRateLimiter :=
  let recent := l.operationTimestamps.filter fun ts => now - l.windowSecs < ts
  if recent.length < l.maxOperations then
    (true, { l with operationTimestamps := recent ++ [now] })
  else
    (false, { l with operationTimestamps := recent })

/-! ## The registry -/

/-- The buckets list exactly the entries that name them. -/
def Indexed (peers : HashMap NodeId DhtPeerEntry) (buckets : Nat → Finset NodeId) : Prop :=
  ∀ i id, id ∈ buckets i ↔ ∃ entry, peers.lookup id = some entry ∧ entry.bucketIndex = i

structure DhtPeerRegistry where
  peers : HashMap NodeId DhtPeerEntry
  bucketIndex : Nat → Finset NodeId
  k : Nat
  rateLimiter : DhtRateLimiter
  maxFailedAttempts : Nat
  keyed : ∀ id entry, peers.lookup id = some entry → entry.node.peer.nodeId = id
  indexed : Indexed peers bucketIndex

namespace Indexed

variable {peers : HashMap NodeId DhtPeerEntry} {buckets : Nat → Finset NodeId} {id : NodeId} {entry : DhtPeerEntry}

theorem empty : Indexed ∅ fun _ => ∅ := by
  intro i id
  simp

theorem modify (h : Indexed peers buckets) {id : NodeId} {f : DhtPeerEntry → DhtPeerEntry}
    (hf : ∀ entry ∈ peers.lookup id, (f entry).bucketIndex = entry.bucketIndex) :
    Indexed (HashMap.modify id f peers) buckets := by
  intro i id'
  rw [h i id', HashMap.lookup_modify]
  split
  · next heq =>
    subst heq
    cases hentry : peers.lookup id' with
    | none => simp
    | some entry => simp [hf entry hentry]
  · rfl

theorem erase (h : Indexed peers buckets) (hentry : peers.lookup id = some entry) :
    Indexed (peers.erase id)
      (Function.update buckets entry.bucketIndex ((buckets entry.bucketIndex).erase id)) := by
  intro i id'
  rw [HashMap.lookup_erase_eq_ite]
  by_cases hid : id' = id
  · subst hid
    have hnot : id' ∉ buckets i ∨ i = entry.bucketIndex := by
      by_cases hi : i = entry.bucketIndex
      · exact .inr hi
      · refine .inl fun hmem => hi ?_
        obtain ⟨entry', hlookup, hbucket⟩ := (h i id').mp hmem
        rw [hentry] at hlookup
        obtain rfl := Option.some.inj hlookup
        exact hbucket.symm
    by_cases hi : i = entry.bucketIndex
    · simp [hi]
    · simpa [hi] using hnot
  · rw [if_neg hid, ← h i id']
    by_cases hi : i = entry.bucketIndex
    · simp [hi, hid]
    · simp [hi]

end Indexed

namespace DhtPeerRegistry

def withConfig (k rateLimitPerMinute maxFailedAttempts : Nat) : DhtPeerRegistry where
  peers := ∅
  bucketIndex := fun _ => ∅
  k := k
  rateLimiter := DhtRateLimiter.new rateLimitPerMinute rateLimitWindowSecs
  maxFailedAttempts := maxFailedAttempts
  keyed := by simp
  indexed := Indexed.empty

def new (k : Nat) : DhtPeerRegistry := withConfig k defaultRateLimitPerMinute defaultMaxFailedAttempts

/-- Rewrites the entry of a peer, which keeps its id and its bucket (`get_mut`). -/
def modifyEntry (r : DhtPeerRegistry) (id : NodeId) (f : DhtPeerEntry → DhtPeerEntry)
    (hid : ∀ entry ∈ r.peers.lookup id, (f entry).node.peer.nodeId = id)
    (hbucket : ∀ entry ∈ r.peers.lookup id, (f entry).bucketIndex = entry.bucketIndex) : DhtPeerRegistry :=
  { r with
    peers := HashMap.modify id f r.peers
    keyed := by
      intro id' entry h
      rw [HashMap.lookup_modify] at h
      split at h
      · next heq =>
        subst heq
        obtain ⟨old, hold, rfl⟩ := Option.map_eq_some_iff.mp h
        exact hid old hold
      · exact r.keyed id' entry h
    indexed := r.indexed.modify hbucket }

/-- Takes an id out of the bucket of the entry that is replaced, if the new entry names another one. -/
def leaveBucket (r : DhtPeerRegistry) (id : NodeId) (bucket : Nat) : Nat → Finset NodeId :=
  match r.peers.lookup id with
  | some existing =>
    if existing.bucketIndex ≠ bucket then
      Function.update r.bucketIndex existing.bucketIndex ((r.bucketIndex existing.bucketIndex).erase id)
    else r.bucketIndex
  | none => r.bucketIndex

theorem mem_leaveBucket {r : DhtPeerRegistry} {id id' : NodeId} {bucket i : Nat} :
    id' ∈ r.leaveBucket id bucket i ↔ id' ∈ r.bucketIndex i ∧ (id' = id → i = bucket) := by
  have hone : ∀ entry, r.peers.lookup id = some entry → id ∈ r.bucketIndex i → entry.bucketIndex = i := by
    intro entry hentry hmem
    obtain ⟨entry', hlookup, hbucket⟩ := (r.indexed i id).mp hmem
    rw [hentry] at hlookup
    rw [Option.some.inj hlookup, hbucket]
  rw [leaveBucket]
  cases hlookup : r.peers.lookup id with
  | none =>
    have hnot : id ∉ r.bucketIndex i := by
      rw [r.indexed i id, hlookup]
      simp
    constructor
    · intro hmem
      exact ⟨hmem, fun heq => absurd (heq ▸ hmem) hnot⟩
    · exact fun h => h.1
  | some existing =>
    have hone := hone existing hlookup
    by_cases hb : existing.bucketIndex = bucket
    · simp only [hb, ne_eq, not_true_eq_false, if_false]
      exact ⟨fun hmem => ⟨hmem, fun heq => (hone (heq ▸ hmem)).symm.trans hb⟩, fun h => h.1⟩
    · simp only [hb, ne_eq, not_false_eq_true, if_true]
      by_cases hi : i = existing.bucketIndex
      · subst hi
        simp only [Function.update_self, Finset.mem_erase]
        exact ⟨fun h => ⟨h.2, fun heq => absurd heq h.1⟩, fun h => ⟨fun heq => hb (h.2 heq), h.1⟩⟩
      · rw [Function.update_of_ne hi]
        exact ⟨fun hmem => ⟨hmem, fun heq => absurd (hone (heq ▸ hmem)).symm hi⟩, fun h => h.1⟩

/-- The last step of an insertion: both the entry and its place in the bucket. -/
def store (r : DhtPeerRegistry) (rateLimiter : DhtRateLimiter) (entry : DhtPeerEntry) : DhtPeerRegistry :=
  let id := entry.node.peer.nodeId
  let buckets := r.leaveBucket id entry.bucketIndex
  { r with
    rateLimiter := rateLimiter
    bucketIndex := Function.update buckets entry.bucketIndex (insert id (buckets entry.bucketIndex))
    peers := r.peers.insert id entry
    keyed := by
      intro id' entry' h
      obtain ⟨rfl, rfl⟩ | ⟨-, h⟩ := HashMap.lookup_insert_cases h
      · rfl
      · exact r.keyed id' entry' h
    indexed := by
      intro i id'
      rw [HashMap.lookup_insert_eq_ite]
      by_cases hid : id' = id
      · subst hid
        by_cases hi : i = entry.bucketIndex
        · simp [hi]
        · simp [hi, Ne.symm hi, buckets, mem_leaveBucket, id]
      · rw [if_neg hid, ← r.indexed i id']
        by_cases hi : i = entry.bucketIndex
        · simp [hi, hid, buckets, mem_leaveBucket]
        · simp [hi, hid, buckets, mem_leaveBucket] }

/-- The sequence number of a known peer is kept. Only new peers are counted against the rate limit. -/
def upsert (r : DhtPeerRegistry) (now : Nat) (entry : DhtPeerEntry) : Except String Bool × DhtPeerRegistry :=
  if maxBucketIndex < entry.bucketIndex then
    let index := entry.bucketIndex
    (.error s!"Invalid bucket index {index}: must be 0-{maxBucketIndex}", r)
  else
    match r.peers.lookup entry.node.peer.nodeId with
    | some existing => (.ok false, r.store r.rateLimiter { entry with lastSequence := existing.lastSequence })
    | none =>
      match r.rateLimiter.checkAndRecord now with
      | (true, rateLimiter) => (.ok true, r.store rateLimiter entry)
      | (false, rateLimiter) =>
        (.error (s!"Rate limit exceeded: too many peer additions (max {defaultRateLimitPerMinute} " ++
            s!"per {rateLimitWindowSecs} seconds)"),
          { r with rateLimiter := rateLimiter })

def remove (r : DhtPeerRegistry) (id : NodeId) : Option DhtPeerEntry × DhtPeerRegistry :=
  match h : r.peers.lookup id with
  | some entry =>
    (some entry,
      { r with
        peers := r.peers.erase id
        bucketIndex := Function.update r.bucketIndex entry.bucketIndex ((r.bucketIndex entry.bucketIndex).erase id)
        keyed := by
          intro id' entry' h'
          rw [HashMap.lookup_erase_eq_ite] at h'
          split at h'
          · cases h'
          · exact r.keyed id' entry' h'
        indexed := r.indexed.erase h })
  | none => (none, r)

def markFailed (r : DhtPeerRegistry) (id : NodeId) : Bool × DhtPeerRegistry :=
  ((r.peers.lookup id).isSome,
    r.modifyEntry id (fun entry => { entry with failedAttempts := wrapU32 (entry.failedAttempts + 1) })
      (r.keyed id) fun _ _ => rfl)

def markResponsive (r : DhtPeerRegistry) (now : Nat) (id : NodeId) : Bool × DhtPeerRegistry :=
  ((r.peers.lookup id).isSome,
    r.modifyEntry id (fun entry => { entry with failedAttempts := 0, lastContact := now }) (r.keyed id) fun _ _ => rfl)

def cleanupFailedPeersWithThreshold (r : DhtPeerRegistry) (maxFailedAttempts : Nat) : Nat × DhtPeerRegistry :=
  let failed := (r.peers.entries.filter fun e => maxFailedAttempts < e.2.failedAttempts).map Sigma.fst
  (failed.length, failed.foldl (fun r id => (r.remove id).2) r)

def cleanupFailedPeers (r : DhtPeerRegistry) : Nat × DhtPeerRegistry :=
  r.cleanupFailedPeersWithThreshold r.maxFailedAttempts

def bucketSize (r : DhtPeerRegistry) (bucket : Nat) : Nat := (r.bucketIndex bucket).card

def isBucketFull (r : DhtPeerRegistry) (bucket : Nat) : Bool := r.k ≤ r.bucketSize bucket

/-- `order` is the order in which the set of the bucket is iterated. -/
def peersInBucket (r : DhtPeerRegistry) (bucket : Nat) (order : List NodeId) : List DhtPeerEntry :=
  (order.filter fun id => id ∈ r.bucketIndex bucket).filterMap r.peers.lookup

def isWraparound (sequence lastSequence : Nat) : Bool :=
  2 ^ 64 - 1 - sequenceWraparoundWindow < lastSequence && sequence < sequenceWraparoundWindow

def checkAndUpdateSequence (r : DhtPeerRegistry) (id : NodeId) (sequence : Nat) :
    Except SequenceError Unit × DhtPeerRegistry :=
  match r.peers.lookup id with
  | none => (.error .peerNotFound, r)
  | some entry =>
    let replayed := entry.lastSequence.filter fun last => sequence ≤ last && !isWraparound sequence last
    match replayed with
    | some last => (.error (.replayDetected sequence last), r)
    | none =>
      (.ok (), r.modifyEntry id (fun entry => { entry with lastSequence := some sequence }) (r.keyed id) fun _ _ => rfl)

/-- The nodes with their distances, sorted by distance; the sort is stable. -/
def byDistance (r : DhtPeerRegistry) (target : NodeId) : List (DhtNode × Nat) :=
  (r.peers.values.map fun entry => (entry.node, target.kademliaDistance entry.node.peer.nodeId)).mergeSort
    fun a b => a.2 ≤ b.2

def findClosest (r : DhtPeerRegistry) (target : NodeId) (count : Nat) : List DhtNode :=
  ((r.byDistance target).take (min count r.k)).map Prod.fst

end DhtPeerRegistry

end SovereignNetwork.Dht
