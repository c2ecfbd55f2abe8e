import SovereignNetwork.Dht.Router

/-!
# The routing table over whole runs

Most operations only remove peers or rewrite them within their buckets.
-/

namespace SovereignNetwork.Dht

open Lib DhtPeerRegistry

/-! ## Runs -/

inductive RouterEvent
  | addNode (now : Nat) (order : List NodeId) (node : DhtNode)
  | removeNode (id : NodeId)
  | markNodeFailed (id : NodeId)
  | markNodeResponsive (now : Nat) (id : NodeId)
  | cleanupFailedPeers
  | performBucketMaintenance (maxFailedAttempts : Nat)
  | checkAndUpdateSequence (id : NodeId) (sequence : Nat)

structure RouterLedger where
  router : KademliaRouter
  accepted : List (NodeId × Nat)

namespace RouterLedger

def start (localId : NodeId) (k : Nat) : RouterLedger := ⟨.new localId k, []⟩

def step (l : RouterLedger) : RouterEvent → RouterLedger
  | .addNode now order node => { l with router := (l.router.addNode now order node).2 }
  | .removeNode id => { l with router := l.router.removeNode id }
  | .markNodeFailed id => { l with router := l.router.markNodeFailed id }
  | .markNodeResponsive now id => { l with router := l.router.markNodeResponsive now id }
  | .cleanupFailedPeers => { l with router := l.router.cleanupFailedPeers }
  | .performBucketMaintenance maxFailedAttempts =>
    { l with router := (l.router.performBucketMaintenance maxFailedAttempts).2 }
  | .checkAndUpdateSequence id sequence =>
    { router := (l.router.checkAndUpdateSequence id sequence).2
      accepted := l.accepted ++ match (l.router.checkAndUpdateSequence id sequence).1 with
        | .ok _ => [(id, sequence)]
        | .error _ => [] }

theorem narrows_step (l : RouterLedger) (e : RouterEvent) :
    (∃ now order node, e = .addNode now order node) ∨ (∃ id sequence, e = .checkAndUpdateSequence id sequence) ∨
    (step l e).router.localId = l.router.localId ∧ Narrows (step l e).router.registry l.router.registry ∧
      (step l e).accepted = l.accepted := by
  cases e with
  | addNode now order node => exact .inl ⟨now, order, node, rfl⟩
  | removeNode id => exact .inr (.inr ⟨rfl, narrows_remove .., rfl⟩)
  | markNodeFailed id => exact .inr (.inr ⟨rfl, narrows_markFailed .., rfl⟩)
  | markNodeResponsive now id => exact .inr (.inr ⟨rfl, narrows_markResponsive .., rfl⟩)
  | cleanupFailedPeers => exact .inr (.inr ⟨rfl, narrows_removes .., rfl⟩)
  | performBucketMaintenance maxFailedAttempts => exact .inr (.inr ⟨rfl, narrows_removes .., rfl⟩)
  | checkAndUpdateSequence id sequence => exact .inr (.inl ⟨id, sequence, rfl⟩)

end RouterLedger

/-! ## Buckets -/

namespace KademliaRouter

variable {localId : NodeId} {k now bucket : Nat} {ids order : List NodeId} {r r' base : KademliaRouter} {node : DhtNode}

/-- The buckets are small, and hold ids from a list but not the local one. -/
structure Bounded (localId : NodeId) (k : Nat) (ids : List NodeId) (r : KademliaRouter) : Prop where
  local_eq : r.localId = localId
  k_eq : r.registry.k = k
  size : ∀ i, (r.registry.bucketIndex i).card ≤ k
  known : ∀ i, ∀ id ∈ r.registry.bucketIndex i, id ∈ ids ∧ id ≠ localId

theorem Bounded.within (h : Bounded localId k ids r) (hlocal : r'.localId = r.localId)
    (hwithin : BucketsWithin r'.registry r.registry) : Bounded localId k ids r' where
  local_eq := hlocal.trans h.local_eq
  k_eq := hwithin.k.trans h.k_eq
  size i := (Finset.card_le_card (hwithin.buckets i)).trans (h.size i)
  known i id hid := h.known i id (hwithin.buckets i hid)

theorem bucketsWithin_of_eq {r r' : DhtPeerRegistry} (hk : r'.k = r.k) (hbuckets : r'.bucketIndex = r.bucketIndex) :
    BucketsWithin r' r := ⟨hk, fun i => by rw [hbuckets]⟩

theorem card_remove_lt {r : DhtPeerRegistry} {id : NodeId} (h : id ∈ r.bucketIndex bucket) :
    ((r.remove id).2.bucketIndex bucket).card < (r.bucketIndex bucket).card := by
  refine Finset.card_lt_card ⟨(narrows_remove r id).bucketsWithin.buckets bucket, fun hsub => ?_⟩
  obtain ⟨entry, hentry, -⟩ := ((r.remove id).2.indexed bucket id).mp (hsub h)
  rw [lookup_remove, if_pos rfl] at hentry
  cases hentry

theorem Bounded.makesRoom (h : Bounded localId k ids r) (hroom : MakesRoom r bucket order base) :
    Bounded localId k ids base ∧ (base.registry.bucketIndex bucket).card < k := by
  cases hroom with
  | notFull hfull =>
    refine ⟨h, ?_⟩
    rw [isBucketFull, decide_eq_true_eq, Nat.not_le, h.k_eq] at hfull
    exact hfull
  | evicted hfull id hid =>
    have hlt := card_remove_lt (mem_of_leastRecentlySeenFailed hid)
    exact ⟨h.within rfl (narrows_remove ..).bucketsWithin, hlt.trans_le (h.size bucket)⟩

theorem MakesRoom.lookup_eq_none {id : NodeId} (hroom : MakesRoom r bucket order base)
    (hnew : r.registry.peers.lookup id = none) : base.registry.peers.lookup id = none := by
  cases hroom with
  | notFull hfull => exact hnew
  | evicted hfull victim hvictim =>
    show (r.registry.remove victim).2.peers.lookup id = none
    rw [lookup_remove, hnew, ite_self]

theorem MakesRoom.narrows (hroom : MakesRoom r bucket order base) : Narrows base.registry r.registry := by
  cases hroom with
  | notFull hfull => exact .refl _
  | evicted hfull victim hvictim => exact narrows_remove ..

theorem MakesRoom.bucketOf_eq {id : NodeId} (hroom : MakesRoom r bucket order base) : base.bucketOf id = r.bucketOf id := by
  cases hroom with
  | notFull hfull => rfl
  | evicted hfull victim hvictim => rfl

theorem insertNew_cases (now : Nat) (hnew : base.registry.peers.lookup node.peer.nodeId = none) :
    (∃ e, (base.insertNew now node).1 = .error e ∧
      (∃ limiter, (base.insertNew now node).2.registry = { base.registry with rateLimiter := limiter }) ∧
      (base.registry.rateLimiter.checkAndRecord now).1 = false) ∨
    (base.insertNew now node).1 = .ok () ∧
      ∃ limiter, (base.insertNew now node).2.registry = base.registry.store limiter (base.newEntry now node) ∧
        (base.registry.rateLimiter.checkAndRecord now).1 = true := by
  have hbucket : (base.newEntry now node).bucketIndex ≤ maxBucketIndex := Nat.min_le_right _ _
  have hresult : (base.insertNew now node).1 = ((base.registry.upsert now (base.newEntry now node)).1).map fun _ => () :=
    rfl
  rcases upsert_cases now hbucket hnew with ⟨e, limiter, hupsert, hfull⟩ | ⟨limiter, hupsert, hroom⟩
  · exact .inl ⟨e, by rw [hresult, hupsert, Except.map], ⟨limiter, congrArg Prod.snd hupsert⟩, hfull⟩
  · exact .inr ⟨by rw [hresult, hupsert, Except.map], limiter, congrArg Prod.snd hupsert, hroom⟩

theorem Bounded.insertNew (h : Bounded localId k ids base) (hnew : base.registry.peers.lookup node.peer.nodeId = none)
    (hroom : (base.registry.bucketIndex (base.bucketOf node.peer.nodeId)).card < k) (hids : node.peer.nodeId ∈ ids)
    (hlocal : node.peer.nodeId ≠ localId) : Bounded localId k ids (base.insertNew now node).2 := by
  rcases insertNew_cases now hnew with ⟨e, -, ⟨limiter, hregistry⟩, -⟩ | ⟨-, limiter, hregistry, -⟩
  · exact h.within rfl (hregistry ▸ bucketsWithin_of_eq rfl rfl)
  · have hbuckets : (base.insertNew now node).2.registry.bucketIndex = Function.update base.registry.bucketIndex
        (base.bucketOf node.peer.nodeId)
        (insert node.peer.nodeId (base.registry.bucketIndex (base.bucketOf node.peer.nodeId))) := by
      rw [hregistry]
      exact bucketIndex_store hnew
    refine ⟨h.local_eq, (congrArg DhtPeerRegistry.k hregistry).trans h.k_eq, fun i => ?_, fun i id hid => ?_⟩
    · rw [hbuckets]
      by_cases hi : i = base.bucketOf node.peer.nodeId
      · rw [hi, Function.update_self]
        exact (Finset.card_insert_le ..).trans hroom
      · rw [Function.update_of_ne hi]
        exact h.size i
    · rw [hbuckets] at hid
      by_cases hi : i = base.bucketOf node.peer.nodeId
      · rw [hi, Function.update_self, Finset.mem_insert] at hid
        rcases hid with rfl | hid
        · exact ⟨hids, hlocal⟩
        · exact h.known _ id hid
      · rw [Function.update_of_ne hi] at hid
        exact h.known i id hid

theorem Bounded.addNode (h : Bounded localId k ids r) (hids : node.peer.nodeId ∈ ids) :
    Bounded localId k ids (r.addNode now order node).2 := by
  have hcases := addNode_cases r now order node
  generalize r.addNode now order node = result at hcases ⊢
  cases hcases with
  | rejected e => exact h
  | known hknown => exact h.within rfl (bucketsWithin_of_eq rfl rfl)
  | new base hlocal hnew hroom =>
    obtain ⟨hbase, hlt⟩ := h.makesRoom hroom
    rw [← hroom.bucketOf_eq] at hlt
    rw [h.local_eq] at hlocal
    exact hbase.insertNew (hroom.lookup_eq_none hnew) hlt hids hlocal

/-- If a peer has to make room for the node, the node is not refused by the rate limiter. -/
def EvictionAllowed (r : KademliaRouter) (now : Nat) (order : List NodeId) (node : DhtNode) : Prop :=
  r.registry.isBucketFull (r.bucketOf node.peer.nodeId) →
    (r.leastRecentlySeenFailed (r.bucketOf node.peer.nodeId) order).isSome →
      (r.registry.rateLimiter.checkAndRecord now).1

theorem rateLimiter_remove (r : DhtPeerRegistry) (id : NodeId) : (r.remove id).2.rateLimiter = r.rateLimiter := by
  unfold DhtPeerRegistry.remove
  split <;> rfl

theorem peers_of_addNode_error {e : String} (hallowed : r.EvictionAllowed now order node)
    (herror : (r.addNode now order node).1 = .error e) : (r.addNode now order node).2.registry.peers = r.registry.peers := by
  have hcases := addNode_cases r now order node
  generalize r.addNode now order node = result at hcases herror ⊢
  cases hcases with
  | rejected e' => rfl
  | known hknown => cases herror
  | new base hlocal hnew hroom =>
    rcases insertNew_cases now (hroom.lookup_eq_none hnew) with ⟨-, -, ⟨limiter, hregistry⟩, hlimited⟩ | ⟨hok, -⟩
    · cases hroom with
      | notFull hfull => rw [hregistry]
      | evicted hfull victim hvictim =>
        have hroom := hallowed hfull (hvictim ▸ rfl)
        rw [← rateLimiter_remove _ victim] at hroom
        exact absurd hroom (Bool.eq_false_iff.mp hlimited)
    · rw [hok] at herror
      cases herror

end KademliaRouter

theorem DhtPeerRegistry.checkAndUpdateSequence_cases (r : DhtPeerRegistry) (id : NodeId) (sequence : Nat) :
    (∃ e, r.checkAndUpdateSequence id sequence = (.error e, r)) ∨
    ∃ entry ∈ r.peers.lookup id, (∀ last ∈ entry.lastSequence, last < sequence ∨ isWraparound sequence last) ∧
      r.checkAndUpdateSequence id sequence =
        (.ok (), r.modifyEntry id (fun entry => { entry with lastSequence := some sequence }) (r.keyed id) fun _ _ => rfl) := by
  unfold checkAndUpdateSequence
  split
  · exact .inl ⟨_, rfl⟩
  · next entry hentry =>
    dsimp only
    split
    · exact .inl ⟨_, rfl⟩
    · next hnone =>
      refine .inr ⟨entry, hentry, fun last hlast => ?_, rfl⟩
      rw [hlast] at hnone
      by_cases hle : sequence ≤ last
      · right
        simpa [Option.filter, hle] using hnone
      · exact .inl (Nat.not_le.mp hle)

namespace RouterLedger

variable {localId : NodeId} {k : Nat} {events : List RouterEvent} {l : RouterLedger} {e : RouterEvent}

def addedIds (events : List RouterEvent) : List NodeId :=
  events.filterMap fun
    | .addNode _ _ node => some node.peer.nodeId
    | _ => none

theorem mem_addedIds {now : Nat} {order : List NodeId} {node : DhtNode} (h : .addNode now order node ∈ events) :
    node.peer.nodeId ∈ addedIds events := List.mem_filterMap.mpr ⟨_, h, rfl⟩

theorem bounded_step (he : e ∈ events) (h : l.router.Bounded localId k (addedIds events)) :
    (step l e).router.Bounded localId k (addedIds events) := by
  rcases narrows_step l e with ⟨now, order, node, rfl⟩ | ⟨id, sequence, rfl⟩ | ⟨hlocal, hnarrows, -⟩
  · exact h.addNode (mem_addedIds he)
  · refine h.within rfl ?_
    show BucketsWithin (l.router.registry.checkAndUpdateSequence id sequence).2 _
    rcases l.router.registry.checkAndUpdateSequence_cases id sequence with ⟨e, heq⟩ | ⟨-, -, -, heq⟩
    · exact heq ▸ KademliaRouter.bucketsWithin_of_eq rfl rfl
    · exact heq ▸ KademliaRouter.bucketsWithin_of_eq rfl rfl
  · exact h.within hlocal hnarrows.bucketsWithin

theorem bounded_start (localId : NodeId) (k : Nat) (ids : List NodeId) :
    (start localId k).router.Bounded localId k ids :=
  ⟨rfl, rfl, fun _ => Nat.zero_le _, fun _ _ h => (by cases h)⟩

theorem bounded_run (localId : NodeId) (k : Nat) (events : List RouterEvent) :
    (run step (start localId k) events).router.Bounded localId k (addedIds events) :=
  have hmem : Along step (fun _ e => e ∈ events) (start localId k) events := Along.of_mem _ fun _ h => h
  hmem.invariant (I := fun l => l.router.Bounded localId k (addedIds events)) (fun _ _ he h => bounded_step he h)
    (bounded_start localId k _)

end RouterLedger

/-! ## The routing table -/

/-- The buckets are disjoint and hold exactly the peers, each under its distance from the local node, at most `k` in one
bucket. Peers differ in the bytes of their ids, also from the local node. -/
structure RoutingTable (localId : NodeId) (k : Nat) (registry : DhtPeerRegistry) : Prop where
  disjoint : ∀ i j, i ≠ j → Disjoint (registry.bucketIndex i) (registry.bucketIndex j)
  complete : ∀ id, (∃ i < numKBuckets, id ∈ registry.bucketIndex i) ↔ (registry.peers.lookup id).isSome
  filed : ∀ i, ∀ id ∈ registry.bucketIndex i, i = min (localId.kademliaDistance id) 159
  size : ∀ i, (registry.bucketIndex i).card ≤ k
  distinct : ∀ id id', (registry.peers.lookup id).isSome → (registry.peers.lookup id').isSome → id.bytes = id'.bytes →
    id = id'
  foreign : ∀ id, (registry.peers.lookup id).isSome → id.bytes ≠ localId.bytes

theorem disjoint_buckets (r : DhtPeerRegistry) {i j : Nat} (h : i ≠ j) : Disjoint (r.bucketIndex i) (r.bucketIndex j) := by
  refine Finset.disjoint_left.mpr fun id hi hj => h ?_
  obtain ⟨entry, hentry, rfl⟩ := (r.indexed i id).mp hi
  obtain ⟨entry', hentry', rfl⟩ := (r.indexed j id).mp hj
  rw [hentry] at hentry'
  rw [Option.some.inj hentry']

theorem KademliaRouter.bucket_eq (r : KademliaRouter) {i : Nat} {id : NodeId} (h : id ∈ r.registry.bucketIndex i) :
    i = min (r.localId.kademliaDistance id) 159 := by
  obtain ⟨entry, hentry, rfl⟩ := (r.registry.indexed i id).mp h
  exact r.placed id entry hentry

theorem KademliaRouter.mem_bucketOf_iff (r : KademliaRouter) (id : NodeId) :
    (∃ i < numKBuckets, id ∈ r.registry.bucketIndex i) ↔ (r.registry.peers.lookup id).isSome := by
  constructor
  · rintro ⟨i, -, hid⟩
    obtain ⟨entry, hentry, -⟩ := (r.registry.indexed i id).mp hid
    rw [hentry]
    rfl
  · intro hsome
    obtain ⟨entry, hentry⟩ := Option.isSome_iff_exists.mp hsome
    refine ⟨entry.bucketIndex, ?_, (r.registry.indexed _ id).mpr ⟨entry, hentry, rfl⟩⟩
    rw [r.placed id entry hentry, getBucketIndex]
    exact Nat.lt_of_le_of_lt (Nat.min_le_right _ _) (by decide)

open RouterLedger in
/-- The table is right after every run in which ids are told apart by their bytes, and an addition that fails leaves the
peers as they are, unless a peer was evicted for a node that the rate limiter then refuses. -/
theorem routing_table_invariant (localId : NodeId) (k : Nat) (events : List RouterEvent)
    (hbytes : ∀ x ∈ localId :: addedIds events, ∀ y ∈ localId :: addedIds events, x.bytes = y.bytes → x = y) :
    RoutingTable localId k (run step (start localId k) events).router.registry ∧
    ∀ now order node e, (run step (start localId k) events).router.EvictionAllowed now order node →
      ((run step (start localId k) events).router.addNode now order node).1 = .error e →
      ((run step (start localId k) events).router.addNode now order node).2.registry.peers =
        (run step (start localId k) events).router.registry.peers := by
  have hbounded := bounded_run localId k events
  generalize (run step (start localId k) events).router = r at hbounded ⊢
  have hknown : ∀ id, (r.registry.peers.lookup id).isSome → id ∈ addedIds events ∧ id ≠ localId := by
    intro id hsome
    obtain ⟨i, -, hid⟩ := (r.mem_bucketOf_iff id).mpr hsome
    exact hbounded.known i id hid
  refine ⟨⟨fun i j => disjoint_buckets r.registry, r.mem_bucketOf_iff, fun i id hid => ?_, hbounded.size,
    fun id id' hid hid' => ?_, fun id hid hlocal => ?_⟩, fun now order node e => KademliaRouter.peers_of_addNode_error⟩
  · rw [← hbounded.local_eq]
    exact r.bucket_eq hid
  · exact hbytes id (List.mem_cons_of_mem _ (hknown id hid).1) id' (List.mem_cons_of_mem _ (hknown id' hid').1)
  · exact (hknown id hid).2 (hbytes id (List.mem_cons_of_mem _ (hknown id hid).1) localId List.mem_cons_self hlocal)

def nodeOf (id : NodeId) : DhtNode := ⟨⟨id⟩, [], 0, 0⟩

def additionOf (id : NodeId) : RouterEvent := .addNode 0 [] (nodeOf id)

/-- Two peers that belong in different buckets. -/
def twoAdditions : List RouterEvent := [additionOf (.fromBytes 1), additionOf (.fromBytes (BitVec.twoPow _ 255))]

open RouterLedger in
theorem routing_table_of_two :
    RoutingTable (.fromBytes 0) 1 (run step (start (.fromBytes 0) 1) twoAdditions).router.registry ∧
      ((run step (start (.fromBytes 0) 1) twoAdditions).router.addNode 0 [.fromBytes 1] (nodeOf (.fromBytes 2))).1 =
        .error "K-bucket 159 is full (k=1)" ∧
      ((run step (start (.fromBytes 0) 1) twoAdditions).router.addNode 0 [.fromBytes 1]
        (nodeOf (.fromBytes 2))).2.registry.peers =
        (run step (start (.fromBytes 0) 1) twoAdditions).router.registry.peers := by
  obtain ⟨htable, hfailed⟩ := routing_table_invariant (.fromBytes 0) 1 twoAdditions (by decide +kernel)
  have hfull : ((run step (start (.fromBytes 0) 1) twoAdditions).router.addNode 0 [.fromBytes 1]
      (nodeOf (.fromBytes 2))).1 = .error "K-bucket 159 is full (k=1)" := by decide +kernel
  refine ⟨htable, hfull, hfailed 0 [.fromBytes 1] (nodeOf (.fromBytes 2)) _ (fun _ hsome => ?_) hfull⟩
  exact absurd hsome (by decide +kernel)

open RouterLedger in
/-- Ids with other nonces pass as other nodes: a peer has the bytes of the local node, and two peers have the same bytes. -/
theorem same_bytes_registered :
    ¬ RoutingTable (.fromBytes 0) 20 (run step (start (.fromBytes 0) 20) [additionOf ⟨0, 1, 0⟩]).router.registry ∧
    ¬ RoutingTable (.fromBytes 0) 20 (run step (start (.fromBytes 0) 20)
      [additionOf ⟨1, 0, 0⟩, additionOf ⟨1, 1, 0⟩]).router.registry := by
  constructor
  · intro h
    exact h.foreign ⟨0, 1, 0⟩ (by decide +kernel) rfl
  · intro h
    have heq := h.distinct ⟨1, 0, 0⟩ ⟨1, 1, 0⟩ (by decide +kernel) (by decide +kernel) rfl
    exact absurd heq (by decide +kernel)

/-! ## Sequence numbers -/

/-- The greatest number below which a counter is not taken to wrap around. -/
def greatestSequence : Nat := 2 ^ 64 - 1 - sequenceWraparoundWindow

namespace RouterLedger

variable {localId : NodeId} {k : Nat} {events : List RouterEvent} {l : RouterLedger} {e : RouterEvent}

def SequencesBounded (_ : RouterLedger) : RouterEvent → Prop
  | .checkAndUpdateSequence _ sequence => sequence ≤ greatestSequence
  | _ => True

/-- A peer that is added anew has had no number accepted: none comes back after it was removed. -/
def NoneReturns (l : RouterLedger) : RouterEvent → Prop
  | .addNode _ _ node =>
    (l.router.registry.peers.lookup node.peer.nodeId).isSome ∨ ∀ a ∈ l.accepted, a.1 ≠ node.peer.nodeId
  | _ => True

/-- The last number of an entry is at least every number that was accepted of the peer. -/
def Recorded (accepted : List (NodeId × Nat)) (id : NodeId) (entry : DhtPeerEntry) : Prop :=
  (∀ last ∈ entry.lastSequence, last ≤ greatestSequence) ∧
    ∀ a ∈ accepted, a.1 = id → ∃ last ∈ entry.lastSequence, a.2 ≤ last

structure SequencesInv (l : RouterLedger) : Prop where
  recorded : ∀ id, ∀ entry ∈ l.router.registry.peers.lookup id, Recorded l.accepted id entry
  increasing : l.accepted.Pairwise fun a b => a.1 = b.1 → a.2 < b.2

theorem Recorded.congr {accepted : List (NodeId × Nat)} {id : NodeId} {entry entry' : DhtPeerEntry}
    (h : Recorded accepted id entry) (heq : entry'.lastSequence = entry.lastSequence) : Recorded accepted id entry' := by
  rw [Recorded, heq]
  exact h

theorem SequencesInv.narrows {l' : RouterLedger} (h : SequencesInv l)
    (hnarrows : Narrows l'.router.registry l.router.registry) (haccepted : l'.accepted = l.accepted) : SequencesInv l' := by
  refine ⟨fun id entry' hentry' => ?_, haccepted ▸ h.increasing⟩
  obtain ⟨entry, hentry, -, hsequence⟩ := hnarrows.entries id entry' hentry'
  rw [haccepted]
  exact (h.recorded id entry hentry).congr hsequence

theorem SequencesInv.addNode {now : Nat} {order : List NodeId} {node : DhtNode} (h : SequencesInv l)
    (hreturns : NoneReturns l (.addNode now order node)) : SequencesInv (step l (.addNode now order node)) := by
  have hcases := KademliaRouter.addNode_cases l.router now order node
  rw [step]
  generalize l.router.addNode now order node = result at hcases ⊢
  cases hcases with
  | rejected e => exact h
  | known hknown => exact h.narrows (KademliaRouter.narrows_refresh ..) rfl
  | new base hlocal hnew hroom =>
    have hbase : SequencesInv { l with router := base } := h.narrows hroom.narrows rfl
    rcases KademliaRouter.insertNew_cases now (hroom.lookup_eq_none hnew) with
      ⟨-, -, ⟨limiter, hregistry⟩, -⟩ | ⟨-, limiter, hregistry, -⟩
    · refine ⟨fun id entry hentry => hbase.recorded id entry ?_, h.increasing⟩
      rw [hregistry] at hentry
      exact hentry
    · refine ⟨fun id entry hentry => ?_, h.increasing⟩
      rw [hregistry] at hentry
      obtain ⟨rfl, rfl⟩ | hentry := lookup_store_cases hentry
      · -- The new entry has no number, and none was accepted of this peer.
        have hfresh := hreturns.resolve_left (by rw [hnew]; decide)
        exact ⟨fun _ hlast => (by cases hlast), fun a ha heq => absurd heq (hfresh a ha)⟩
      · exact hbase.recorded id entry hentry

theorem lt_of_not_wraparound {sequence last : Nat} (hbound : last ≤ greatestSequence)
    (h : last < sequence ∨ isWraparound sequence last) : last < sequence := by
  refine h.resolve_right fun hwrap => ?_
  rw [isWraparound, Bool.and_eq_true, decide_eq_true_eq] at hwrap
  exact absurd hwrap.1 (Nat.not_lt.mpr hbound)

theorem SequencesInv.accept {id : NodeId} {sequence : Nat} {entry : DhtPeerEntry} {router : KademliaRouter}
    (h : SequencesInv l) (hbound : sequence ≤ greatestSequence) (hentry : l.router.registry.peers.lookup id = some entry)
    (hlast : ∀ last ∈ entry.lastSequence, last < sequence ∨ isWraparound sequence last)
    (hpeers : router.registry.peers =
      HashMap.modify id (fun entry => { entry with lastSequence := some sequence }) l.router.registry.peers) :
    SequencesInv ⟨router, l.accepted ++ [(id, sequence)]⟩ := by
  have hrecorded := h.recorded id entry hentry
  have hgreater : ∀ a ∈ l.accepted, a.1 = id → a.2 < sequence := by
    intro a ha heq
    obtain ⟨last, hmem, hle⟩ := hrecorded.2 a ha heq
    exact Nat.lt_of_le_of_lt hle (lt_of_not_wraparound (hrecorded.1 last hmem) (hlast last hmem))
  constructor
  · intro id' entry' hentry'
    rw [hpeers, HashMap.lookup_modify] at hentry'
    split at hentry'
    · next heq =>
      subst heq
      obtain ⟨old, -, rfl⟩ := Option.map_eq_some_iff.mp hentry'
      refine ⟨?_, fun a ha heq => ⟨sequence, rfl, ?_⟩⟩
      · rintro _ ⟨⟩
        exact hbound
      · rcases List.mem_append.mp ha with ha | ha
        · exact Nat.le_of_lt (hgreater a ha heq)
        · rw [List.mem_singleton.mp ha]
    · next hne =>
      have hold := h.recorded id' entry' hentry'
      refine ⟨hold.1, fun a ha heq => ?_⟩
      rcases List.mem_append.mp ha with ha | ha
      · exact hold.2 a ha heq
      · rw [List.mem_singleton.mp ha] at heq
        exact absurd heq.symm hne
  · refine List.pairwise_append.mpr ⟨h.increasing, List.pairwise_singleton .., fun a ha b hb heq => ?_⟩
    rw [List.mem_singleton.mp hb] at heq ⊢
    exact hgreater a ha heq

theorem SequencesInv.check {id : NodeId} {sequence : Nat} (h : SequencesInv l) (hbound : sequence ≤ greatestSequence) :
    SequencesInv (step l (.checkAndUpdateSequence id sequence)) := by
  have hstep : step l (.checkAndUpdateSequence id sequence) =
      ⟨(l.router.checkAndUpdateSequence id sequence).2, l.accepted ++
        match (l.router.registry.checkAndUpdateSequence id sequence).1 with
          | .ok _ => [(id, sequence)]
          | .error _ => []⟩ := rfl
  rw [hstep]
  rcases l.router.registry.checkAndUpdateSequence_cases id sequence with ⟨e, heq⟩ | ⟨entry, hentry, hlast, heq⟩
  · rw [heq]
    refine h.narrows ?_ (List.append_nil _)
    show Narrows (l.router.registry.checkAndUpdateSequence id sequence).2 _
    rw [heq]
    exact .refl _
  · have hpeers : (l.router.checkAndUpdateSequence id sequence).2.registry.peers =
        HashMap.modify id (fun entry => { entry with lastSequence := some sequence }) l.router.registry.peers := by
      show (l.router.registry.checkAndUpdateSequence id sequence).2.peers = _
      rw [heq]
      rfl
    rw [heq]
    exact h.accept hbound hentry hlast hpeers

theorem sequencesInv_step (hbound : SequencesBounded l e) (hreturns : NoneReturns l e) (h : SequencesInv l) :
    SequencesInv (step l e) := by
  rcases narrows_step l e with ⟨now, order, node, rfl⟩ | ⟨id, sequence, rfl⟩ | ⟨-, hnarrows, haccepted⟩
  · exact h.addNode hreturns
  · exact h.check hbound
  · exact h.narrows hnarrows haccepted

/-- Of two accepted numbers of a peer the later one is greater, as long as no peer returns after it was removed. -/
theorem sequence_numbers_increase (localId : NodeId) (k : Nat) (events : List RouterEvent)
    (hbound : Along step SequencesBounded (start localId k) events)
    (hreturns : Along step NoneReturns (start localId k) events) :
    (run step (start localId k) events).accepted.Pairwise fun a b => a.1 = b.1 → a.2 < b.2 := by
  have hinv := (hbound.and hreturns).invariant (fun _ _ hok h => sequencesInv_step hok.1 hok.2 h)
    (⟨fun _ _ h => (by cases h), List.Pairwise.nil⟩ : SequencesInv (start localId k))
  exact hinv.increasing

def sampleSequences : List RouterEvent :=
  [additionOf (.fromBytes 1), .checkAndUpdateSequence (.fromBytes 1) 5, .checkAndUpdateSequence (.fromBytes 1) 5,
    .checkAndUpdateSequence (.fromBytes 1) 6]

theorem sequence_numbers_increase_sample :
    (run step (start (.fromBytes 0) 20) sampleSequences).accepted = [(.fromBytes 1, 5), (.fromBytes 1, 6)] ∧
    (run step (start (.fromBytes 0) 20) sampleSequences).accepted.Pairwise fun a b => a.1 = b.1 → a.2 < b.2 := by
  refine ⟨by decide +kernel, sequence_numbers_increase _ _ _ ?_ ?_⟩
  · have hsmall : 6 ≤ greatestSequence := by decide
    exact ⟨trivial, Nat.le_of_lt hsmall, Nat.le_of_lt hsmall, hsmall, trivial⟩
  · exact ⟨.inr fun _ h => (by cases h), trivial, trivial, trivial, trivial⟩

/-- A number is accepted a second time after the peer was removed and added again. -/
theorem number_accepted_again :
    (run step (start (.fromBytes 0) 20)
      [additionOf (.fromBytes 1), .checkAndUpdateSequence (.fromBytes 1) 5, .removeNode (.fromBytes 1),
        additionOf (.fromBytes 1), .checkAndUpdateSequence (.fromBytes 1) 5]).accepted =
      [(.fromBytes 1, 5), (.fromBytes 1, 5)] := by
  decide +kernel

end RouterLedger

end SovereignNetwork.Dht
