import Mathlib.Data.List.MinMax
import SovereignNetwork.Dht.PeerRegistry
import SovereignNetwork.Lib.Run

/-!
# The Kademlia router

The router files a peer by its distance from the local node.
-/

namespace SovereignNetwork.Dht

open Lib

def getBucketIndex (distance : Nat) : Nat := min distance maxBucketIndex

structure KademliaRouter where
  localId : NodeId
  registry : DhtPeerRegistry
  k : Nat
  placed : ∀ id, ∀ entry ∈ registry.peers.lookup id,
    entry.bucketIndex = getBucketIndex (localId.kademliaDistance id)

/-! ## What the operations of the registry leave -/

namespace DhtPeerRegistry

variable {r r' base : DhtPeerRegistry} {id : NodeId} {entry : DhtPeerEntry}

/-- Every entry comes from one of `r` under the same id, in the same bucket and with the same sequence number. -/
structure Narrows (r' r : DhtPeerRegistry) : Prop where
  k : r'.k = r.k
  entries : ∀ id, ∀ entry' ∈ r'.peers.lookup id, ∃ entry ∈ r.peers.lookup id,
    entry'.bucketIndex = entry.bucketIndex ∧ entry'.lastSequence = entry.lastSequence

theorem Narrows.refl (r : DhtPeerRegistry) : Narrows r r := ⟨rfl, fun _ entry h => ⟨entry, h, rfl, rfl⟩⟩

theorem Narrows.trans (h' : Narrows r' base) (h : Narrows base r) : Narrows r' r := by
  refine ⟨h'.k.trans h.k, fun id entry' hentry' => ?_⟩
  obtain ⟨entry, hentry, hbucket', hsequence'⟩ := h'.entries id entry' hentry'
  obtain ⟨entry, hentry, hbucket, hsequence⟩ := h.entries id entry hentry
  exact ⟨entry, hentry, hbucket'.trans hbucket, hsequence'.trans hsequence⟩

/-- The buckets of `r'` are parts of those of `r`. -/
structure BucketsWithin (r' r : DhtPeerRegistry) : Prop where
  k : r'.k = r.k
  buckets : ∀ i, r'.bucketIndex i ⊆ r.bucketIndex i

theorem Narrows.bucketsWithin (h : Narrows r' r) : BucketsWithin r' r := by
  refine ⟨h.k, fun i id hid => ?_⟩
  obtain ⟨entry', hentry', rfl⟩ := (r'.indexed i id).mp hid
  obtain ⟨entry, hentry, hbucket, -⟩ := h.entries id entry' hentry'
  exact (r.indexed _ id).mpr ⟨entry, hentry, hbucket.symm⟩

theorem narrows_modifyEntry {f : DhtPeerEntry → DhtPeerEntry}
    (hid : ∀ entry ∈ r.peers.lookup id, (f entry).node.peer.nodeId = id)
    (hbucket : ∀ entry ∈ r.peers.lookup id, (f entry).bucketIndex = entry.bucketIndex)
    (hsequence : ∀ entry, (f entry).lastSequence = entry.lastSequence) : Narrows (r.modifyEntry id f hid hbucket) r := by
  refine ⟨rfl, fun id' entry' hentry' => ?_⟩
  have hlookup : (HashMap.modify id f r.peers).lookup id' = some entry' := hentry'
  rw [HashMap.lookup_modify] at hlookup
  split at hlookup
  · next heq =>
    subst heq
    obtain ⟨entry, hentry, rfl⟩ := Option.map_eq_some_iff.mp hlookup
    exact ⟨entry, hentry, hbucket entry hentry, hsequence entry⟩
  · exact ⟨entry', hlookup, rfl, rfl⟩

theorem narrows_markFailed (r : DhtPeerRegistry) (id : NodeId) : Narrows (r.markFailed id).2 r :=
  narrows_modifyEntry (f := fun entry => { entry with failedAttempts := wrapU32 (entry.failedAttempts + 1) }) (r.keyed id)
    (fun _ _ => rfl) fun _ => rfl

theorem narrows_markResponsive (r : DhtPeerRegistry) (now : Nat) (id : NodeId) : Narrows (r.markResponsive now id).2 r :=
  narrows_modifyEntry (f := fun entry => { entry with failedAttempts := 0, lastContact := now }) (r.keyed id)
    (fun _ _ => rfl) fun _ => rfl

theorem lookup_remove (r : DhtPeerRegistry) (id id' : NodeId) :
    (r.remove id).2.peers.lookup id' = if id' = id then none else r.peers.lookup id' := by
  unfold remove
  split
  · exact HashMap.lookup_erase_eq_ite ..
  · next hnone =>
    split
    · next heq => rw [heq, hnone]
    · rfl

theorem narrows_remove (r : DhtPeerRegistry) (id : NodeId) : Narrows (r.remove id).2 r := by
  refine ⟨?_, fun id' entry' hentry' => ?_⟩
  · unfold remove
    split <;> rfl
  · rw [lookup_remove] at hentry'
    split at hentry'
    · cases hentry'
    · exact ⟨entry', hentry', rfl, rfl⟩

theorem narrows_removes (r : DhtPeerRegistry) (ids : List NodeId) :
    Narrows (ids.foldl (fun r id => (r.remove id).2) r) r := by
  induction ids generalizing r with
  | nil => exact .refl r
  | cons id ids ih => exact (ih _).trans (narrows_remove r id)

theorem upsert_cases (now : Nat) (hbucket : entry.bucketIndex ≤ maxBucketIndex)
    (hnew : r.peers.lookup entry.node.peer.nodeId = none) :
    (∃ e limiter, r.upsert now entry = (.error e, { r with rateLimiter := limiter }) ∧
      (r.rateLimiter.checkAndRecord now).1 = false) ∨
    ∃ limiter, r.upsert now entry = (.ok true, r.store limiter entry) ∧
      (r.rateLimiter.checkAndRecord now).1 = true := by
  unfold upsert
  rw [if_neg (Nat.not_lt.mpr hbucket), hnew]
  dsimp only
  split
  · next limiter hroom => exact .inr ⟨limiter, rfl, congrArg Prod.fst hroom⟩
  · next limiter hfull => exact .inl ⟨_, limiter, rfl, congrArg Prod.fst hfull⟩

theorem bucketIndex_store {limiter : DhtRateLimiter} (hnew : r.peers.lookup entry.node.peer.nodeId = none) :
    (r.store limiter entry).bucketIndex = Function.update r.bucketIndex entry.bucketIndex
      (insert entry.node.peer.nodeId (r.bucketIndex entry.bucketIndex)) := by
  show Function.update (r.leaveBucket _ _) _ _ = _
  rw [leaveBucket, hnew]

theorem lookup_store_cases {limiter : DhtRateLimiter} {entry' : DhtPeerEntry}
    (h : (r.store limiter entry).peers.lookup id = some entry') :
    (id = entry.node.peer.nodeId ∧ entry' = entry) ∨ r.peers.lookup id = some entry' := by
  obtain ⟨rfl, rfl⟩ | ⟨-, h⟩ := HashMap.lookup_insert_cases h
  · exact .inl ⟨rfl, rfl⟩
  · exact .inr h

theorem mem_bucket_of_peersInBucket {bucket : Nat} {order : List NodeId}
    (h : entry ∈ r.peersInBucket bucket order) : entry.node.peer.nodeId ∈ r.bucketIndex bucket := by
  obtain ⟨id, hid, hentry⟩ := List.mem_filterMap.mp h
  rw [r.keyed id entry hentry]
  simpa using (List.mem_filter.mp hid).2

end DhtPeerRegistry

/-! ## The operations of the router -/

namespace KademliaRouter

open DhtPeerRegistry

def new (localId : NodeId) (k : Nat) : KademliaRouter where
  localId := localId
  registry := DhtPeerRegistry.new k
  k := k
  placed := fun _ _ h => by cases h

def bucketOf (r : KademliaRouter) (id : NodeId) : Nat := getBucketIndex (r.localId.kademliaDistance id)

/-- An operation that only removes or rewrites entries within their buckets. -/
def narrowed (r : KademliaRouter) (registry : DhtPeerRegistry) (h : Narrows registry r.registry) : KademliaRouter :=
  { r with
    registry := registry
    placed := by
      intro id entry' hentry'
      obtain ⟨entry, hentry, hbucket, -⟩ := h.entries id entry' hentry'
      rw [hbucket]
      exact r.placed id entry hentry }

theorem narrows_narrowed {r : KademliaRouter} {registry : DhtPeerRegistry} {h : Narrows registry r.registry} :
    Narrows (r.narrowed registry h).registry r.registry := h

def removeNode (r : KademliaRouter) (id : NodeId) : KademliaRouter :=
  r.narrowed (r.registry.remove id).2 (narrows_remove ..)

def markNodeFailed (r : KademliaRouter) (id : NodeId) : KademliaRouter :=
  r.narrowed (r.registry.markFailed id).2 (narrows_markFailed ..)

def markNodeResponsive (r : KademliaRouter) (now : Nat) (id : NodeId) : KademliaRouter :=
  r.narrowed (r.registry.markResponsive now id).2 (narrows_markResponsive ..)

def cleanupFailedPeers (r : KademliaRouter) : KademliaRouter :=
  r.narrowed r.registry.cleanupFailedPeers.2 (narrows_removes ..)

def performBucketMaintenance (r : KademliaRouter) (maxFailedAttempts : Nat) : Nat × KademliaRouter :=
  ((r.registry.cleanupFailedPeersWithThreshold maxFailedAttempts).1,
    r.narrowed (r.registry.cleanupFailedPeersWithThreshold maxFailedAttempts).2 (narrows_removes ..))

/-- The entry of a known peer takes the new node; its sequence number is kept. -/
def refresh (r : KademliaRouter) (now : Nat) (node : DhtNode) : KademliaRouter :=
  r.narrowed
    (r.registry.modifyEntry node.peer.nodeId
      (fun entry => { entry with
        node := node
        lastContact := now
        failedAttempts := 0
        distance := r.localId.kademliaDistance node.peer.nodeId
        bucketIndex := r.bucketOf node.peer.nodeId })
      (fun _ _ => rfl) fun entry hentry => (r.placed _ entry hentry).symm)
    (narrows_modifyEntry _ _ fun _ => rfl)

theorem narrows_refresh (r : KademliaRouter) (now : Nat) (node : DhtNode) :
    Narrows (r.refresh now node).registry r.registry := by
  unfold refresh
  exact narrows_narrowed

def newEntry (r : KademliaRouter) (now : Nat) (node : DhtNode) : DhtPeerEntry where
  node := node
  distance := r.localId.kademliaDistance node.peer.nodeId
  bucketIndex := r.bucketOf node.peer.nodeId
  lastContact := now
  failedAttempts := 0
  lastSequence := none

/-- The new entry or an entry that keeps its bucket is filed under every id. -/
def insertNew (r : KademliaRouter) (now : Nat) (node : DhtNode) : Except String Unit × KademliaRouter :=
  (((r.registry.upsert now (r.newEntry now node)).1).map fun _ => (),
    { r with
      registry := (r.registry.upsert now (r.newEntry now node)).2
      placed := by
        intro id entry hentry
        unfold upsert at hentry
        split at hentry
        · exact r.placed id entry hentry
        · split at hentry
          · obtain ⟨rfl, rfl⟩ | hentry := lookup_store_cases hentry
            · rfl
            · exact r.placed id entry hentry
          · split at hentry
            · obtain ⟨rfl, rfl⟩ | hentry := lookup_store_cases hentry
              · rfl
              · exact r.placed id entry hentry
            · exact r.placed id entry hentry })

/-- The peer of a full bucket that is replaced: of those that failed too often, the one seen least recently. -/
def leastRecentlySeenFailed (r : KademliaRouter) (bucket : Nat) (order : List NodeId) : Option NodeId :=
  (((r.registry.peersInBucket bucket order).filter fun entry =>
    defaultMaxFailedAttempts < entry.failedAttempts).argmin fun entry => entry.lastContact).map
      fun entry => entry.node.peer.nodeId

-- The check for an empty public key is left out: the key is an array of fixed size, so it is never empty.
def addNode (r : KademliaRouter) (now : Nat) (order : List NodeId) (node : DhtNode) :
    Except String Unit × KademliaRouter :=
  let id := node.peer.nodeId
  let bucket := r.bucketOf id
  if id = r.localId then (.error "Cannot add local node to routing table", r)
  else if (r.registry.peers.lookup id).isSome then (.ok (), r.refresh now node)
  else if r.registry.isBucketFull bucket then
    match r.leastRecentlySeenFailed bucket order with
    | some nodeToRemove => (r.removeNode nodeToRemove).insertNew now node
    | none =>
      let k := r.k
      (.error s!"K-bucket {bucket} is full (k={k})", r)
  else r.insertNew now node

def checkAndUpdateSequence (r : KademliaRouter) (id : NodeId) (sequence : Nat) :
    Except SequenceError Unit × KademliaRouter :=
  ((r.registry.checkAndUpdateSequence id sequence).1,
    { r with
      registry := (r.registry.checkAndUpdateSequence id sequence).2
      placed := by
        intro id' entry hentry
        unfold DhtPeerRegistry.checkAndUpdateSequence at hentry
        split at hentry
        · exact r.placed id' entry hentry
        · dsimp only at hentry
          split at hentry
          · exact r.placed id' entry hentry
          · have hlookup : (HashMap.modify id _ r.registry.peers).lookup id' = some entry := hentry
            rw [HashMap.lookup_modify] at hlookup
            split at hlookup
            · next heq =>
              subst heq
              obtain ⟨old, hold, rfl⟩ := Option.map_eq_some_iff.mp hlookup
              exact r.placed id' old hold
            · exact r.placed id' entry hlookup })

/-! ## Adding a node -/

variable {r : KademliaRouter} {now bucket : Nat} {order : List NodeId} {node : DhtNode}

theorem mem_of_leastRecentlySeenFailed {id : NodeId} (h : r.leastRecentlySeenFailed bucket order = some id) :
    id ∈ r.registry.bucketIndex bucket := by
  obtain ⟨entry, hentry, rfl⟩ := Option.map_eq_some_iff.mp h
  exact mem_bucket_of_peersInBucket (List.mem_filter.mp (List.argmin_mem hentry)).1

/-- The router that a new peer is inserted into: the bucket has room, or one of its peers is taken out. -/
inductive MakesRoom (r : KademliaRouter) (bucket : Nat) (order : List NodeId) : KademliaRouter → Prop
  | notFull (h : ¬ r.registry.isBucketFull bucket) : MakesRoom r bucket order r
  | evicted (hfull : r.registry.isBucketFull bucket) (nodeToRemove : NodeId)
      (h : r.leastRecentlySeenFailed bucket order = some nodeToRemove) :
      MakesRoom r bucket order (r.removeNode nodeToRemove)

inductive AddNodeResult (r : KademliaRouter) (now : Nat) (order : List NodeId) (node : DhtNode) :
    Except String Unit × KademliaRouter → Prop
  | rejected (e : String) : AddNodeResult r now order node (.error e, r)
  | known (h : (r.registry.peers.lookup node.peer.nodeId).isSome) :
      AddNodeResult r now order node (.ok (), r.refresh now node)
  | new (base : KademliaRouter) (hlocal : node.peer.nodeId ≠ r.localId)
      (hnew : r.registry.peers.lookup node.peer.nodeId = none)
      (hroom : MakesRoom r (r.bucketOf node.peer.nodeId) order base) :
      AddNodeResult r now order node (base.insertNew now node)

theorem addNode_cases (r : KademliaRouter) (now : Nat) (order : List NodeId) (node : DhtNode) :
    AddNodeResult r now order node (r.addNode now order node) := by
  unfold addNode
  dsimp only
  split
  · exact .rejected _
  · next hlocal =>
    split
    · next hknown => exact .known hknown
    · next hknown =>
      have hnew := Option.not_isSome_iff_eq_none.mp hknown
      split
      · next hfull =>
        split
        · next nodeToRemove hvictim => exact .new _ hlocal hnew (.evicted hfull nodeToRemove hvictim)
        · exact .rejected _
      · next hfull => exact .new _ hlocal hnew (.notFull hfull)

end KademliaRouter

end SovereignNetwork.Dht
