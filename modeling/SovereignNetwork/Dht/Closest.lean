import Mathlib.Data.BitVec
import SovereignNetwork.Dht.PeerRegistry
import SovereignNetwork.Lib.StableSort

/-!
# Which peers a lookup returns

`findClosest` sorts by the number of leading bits a peer shares with the target. Peers other than the target come
farthest first, so the lookup returns the closest peers only where all of them are equally far, or where it returns none
of them.
-/

namespace SovereignNetwork.Dht

open Lib NodeId

namespace DhtPeerRegistry

variable {r : DhtPeerRegistry} {target : NodeId} {count : Nat}

/-! ## The peers -/

theorem map_nodeId_values (r : DhtPeerRegistry) :
    (r.peers.values.map fun entry => entry.node.peer.nodeId) = r.peers.keys := by
  rw [HashMap.values, List.map_map, AList.keys, List.keys]
  refine List.map_congr_left fun e he => ?_
  exact r.keyed e.1 e.2 (HashMap.mem_entries_iff.mp he)

def nodes (r : DhtPeerRegistry) : List DhtNode := r.peers.values.map fun entry => entry.node

theorem nodup_nodeIds (r : DhtPeerRegistry) : (r.nodes.map fun node => node.peer.nodeId).Nodup := by
  rw [nodes, List.map_map]
  exact r.map_nodeId_values.symm ▸ r.peers.keys_nodup

theorem nodup_nodes (r : DhtPeerRegistry) : r.nodes.Nodup := r.nodup_nodeIds.of_map _

def sortedNodes (r : DhtPeerRegistry) (target : NodeId) : List DhtNode :=
  sortByKey (fun node => target.kademliaDistance node.peer.nodeId) r.nodes

theorem sortedNodes_perm (r : DhtPeerRegistry) (target : NodeId) : (r.sortedNodes target).Perm r.nodes :=
  sortByKey_perm _ _

theorem findClosest_eq (r : DhtPeerRegistry) (target : NodeId) (count : Nat) :
    r.findClosest target count = (r.sortedNodes target).take (min count r.k) := by
  have hsort := List.map_mergeSort (l := r.nodes) (f := fun node => (node, target.kademliaDistance node.peer.nodeId))
    (r := keyLe fun node => target.kademliaDistance node.peer.nodeId) (s := fun a b => a.2 ≤ b.2) fun _ _ _ _ => rfl
  rw [nodes, List.map_map] at hsort
  rw [findClosest, byDistance, List.map_take]
  refine congrArg _ ((congrArg (List.map Prod.fst) hsort.symm).trans ?_)
  rw [List.map_map]
  exact List.map_id _

theorem length_findClosest (r : DhtPeerRegistry) (target : NodeId) (count : Nat) :
    (r.findClosest target count).length = min (min count r.k) r.peers.values.length := by
  rw [findClosest_eq, List.length_take, (r.sortedNodes_perm target).length_eq, nodes, List.length_map]

/-! ## The lookup -/

/-- The peers that a lookup for the target should return, nearest first. -/
structure ClosestPeers (r : DhtPeerRegistry) (target : NodeId) (count : Nat) (nodes : List DhtNode) : Prop where
  length : nodes.length = min (min count r.k) r.peers.values.length
  distinct : (nodes.map fun node => node.peer.nodeId).Nodup
  peers : ∀ node ∈ nodes, ∃ entry ∈ r.peers.values, entry.node = node
  closest : ∀ entry ∈ r.peers.values, entry.node ∉ nodes →
    ∀ node ∈ nodes, ¬ Nearer target entry.node.peer.nodeId node.peer.nodeId
  ordered : nodes.Pairwise fun a b => ¬ Nearer target b.peer.nodeId a.peer.nodeId

/-- The place of a node in the order of a lookup. -/
def place (r : DhtPeerRegistry) (target : NodeId) (node : DhtNode) : Nat := (r.sortedNodes target).idxOf node

variable {a b : DhtNode}

theorem mem_findClosest (ha : a ∈ r.nodes) : a ∈ r.findClosest target count ↔ r.place target a < min count r.k := by
  rw [findClosest_eq]
  exact List.mem_take_iff_idxOf_lt ((r.sortedNodes_perm target).mem_iff.mpr ha)

theorem distance_le_of_place_lt (hb : b ∈ r.nodes) (h : r.place target a < r.place target b) :
    target.kademliaDistance a.peer.nodeId ≤ target.kademliaDistance b.peer.nodeId :=
  key_le_of_idxOf_lt (a := a) (b := b) hb h

theorem place_lt_of_distance_lt (ha : a ∈ r.nodes)
    (h : target.kademliaDistance a.peer.nodeId < target.kademliaDistance b.peer.nodeId) :
    r.place target a < r.place target b :=
  idxOf_lt_of_key_lt ha h

theorem place_lt_of_before (hb : b ∈ r.nodes) (h : r.nodes.idxOf a < r.nodes.idxOf b)
    (hle : target.kademliaDistance a.peer.nodeId ≤ target.kademliaDistance b.peer.nodeId) :
    r.place target a < r.place target b :=
  idxOf_lt_of_before r.nodup_nodes hb h hle

/-- What is left to ask of a lookup: nothing that comes after a returned node is nearer. -/
theorem closestPeers_iff : ClosestPeers r target count (r.findClosest target count) ↔
    ∀ a ∈ r.nodes, ∀ b ∈ r.nodes, r.place target a < min count r.k → r.place target a < r.place target b →
      ¬ Nearer target b.peer.nodeId a.peer.nodeId := by
  have hmem : ∀ node ∈ r.findClosest target count, node ∈ r.nodes := by
    intro node hnode
    rw [findClosest_eq] at hnode
    exact (r.sortedNodes_perm target).mem_iff.mp (List.mem_of_mem_take hnode)
  have hnodup : (r.sortedNodes target).Nodup := (r.sortedNodes_perm target).nodup_iff.mpr r.nodup_nodes
  constructor
  · intro h a ha b hb hlt hab
    have hreturned := (mem_findClosest ha).mpr hlt
    by_cases hb' : b ∈ r.findClosest target count
    · have hpair : [a, b].Sublist (r.findClosest target count) := by
        rw [findClosest_eq] at hb' ⊢
        refine pair_of_idxOf_lt hb' ?_
        rwa [idxOf_take_of_mem (findClosest_eq r target count ▸ hreturned), idxOf_take_of_mem hb']
      exact List.pairwise_iff_forall_sublist.mp h.ordered hpair
    · obtain ⟨entry, hentry, rfl⟩ := List.mem_map.mp hb
      exact h.closest entry hentry hb' a hreturned
  · intro h
    refine ⟨length_findClosest r target count, ?_, fun node hnode => List.mem_map.mp (hmem node hnode), ?_, ?_⟩
    · rw [findClosest_eq]
      refine (((List.take_sublist _ _).map _).nodup ?_)
      exact ((r.sortedNodes_perm target).map _).nodup_iff.mpr r.nodup_nodeIds
    · intro entry hentry hnot node hnode
      have hentry' : entry.node ∈ r.nodes := List.mem_map_of_mem hentry
      rw [mem_findClosest hentry'] at hnot
      have hlt := (mem_findClosest (hmem node hnode)).mp hnode
      exact h node (hmem node hnode) entry.node hentry' hlt (by omega)
    · refine List.pairwise_iff_forall_sublist.mpr fun {a b} hpair => ?_
      have ha := hpair.mem (List.mem_cons_self)
      have hb := hpair.mem (List.mem_cons_of_mem _ List.mem_cons_self)
      refine h a (hmem a ha) b (hmem b hb) ((mem_findClosest (hmem a ha)).mp ha) (idxOf_lt_of_pair hnodup ?_)
      rw [findClosest_eq] at hpair
      exact hpair.trans (List.take_sublist _ _)

/-! ## Where the lookup is right -/

/-- The nodes with the bytes of the target that come, in the order of the map, before every peer that differs from it in
the top bit. -/
def ownFirst (r : DhtPeerRegistry) (target : NodeId) : List DhtNode :=
  r.nodes.filter fun node => node.peer.nodeId.bytes = target.bytes ∧
    ∀ other ∈ r.nodes, other.peer.nodeId.bytes.msb ≠ target.bytes.msb → r.nodes.idxOf node < r.nodes.idxOf other

theorem nodup_ownFirst (r : DhtPeerRegistry) (target : NodeId) : (r.ownFirst target).Nodup := r.nodup_nodes.filter _

/-- The lookup has room for the first of the target's own nodes only, or all other peers differ from the target first in
one and the same bit and come after its own nodes. -/
def EquallyFar (r : DhtPeerRegistry) (target : NodeId) (count : Nat) : Prop :=
  min count r.k ≤ (r.ownFirst target).length ∨
    (∀ a ∈ r.nodes, ∀ b ∈ r.nodes, a.peer.nodeId.bytes ≠ target.bytes → b.peer.nodeId.bytes ≠ target.bytes →
      ¬ Nearer target a.peer.nodeId b.peer.nodeId) ∧
    ∀ a ∈ r.nodes, a.peer.nodeId.bytes = target.bytes → a ∈ r.ownFirst target

instance (r : DhtPeerRegistry) (target : NodeId) : Decidable (EquallyFar r target count) :=
  inferInstanceAs (Decidable (_ ∨ _ ∧ _))

theorem differingBits_eq_top {x y : NodeId} : differingBits x y = 256 ↔ y.bytes.msb ≠ x.bytes.msb := by
  have hmsb : (xorDistance x y).msb = true ↔ y.bytes.msb ≠ x.bytes.msb := by
    rw [xorDistance, BitVec.msb_xor]
    cases x.bytes.msb <;> cases y.bytes.msb <;> simp
  have hle := differingBits_le x y
  have hsize := Nat.lt_size (m := 255) (n := (xorDistance x y).toNat)
  rw [differingBits_eq_size] at hle ⊢
  rw [← hmsb, BitVec.msb_eq_true_iff_two_mul_ge]
  omega

theorem distance_own (h : a.peer.nodeId.bytes = target.bytes) : target.kademliaDistance a.peer.nodeId = 0 := by
  rw [kademliaDistance_eq, if_pos h.symm]

theorem distance_other (h : a.peer.nodeId.bytes ≠ target.bytes) :
    target.kademliaDistance a.peer.nodeId = 256 - differingBits target a.peer.nodeId := by
  rw [kademliaDistance_eq, if_neg (Ne.symm h)]

theorem distance_top (h : a.peer.nodeId.bytes.msb ≠ target.bytes.msb) : target.kademliaDistance a.peer.nodeId = 0 := by
  rw [distance_other fun heq => h (congrArg BitVec.msb heq), differingBits_eq_top.mpr h]

theorem nearer_own (ha : a.peer.nodeId.bytes = target.bytes) (hb : b.peer.nodeId.bytes ≠ target.bytes) :
    Nearer target a.peer.nodeId b.peer.nodeId := by
  rw [nearer_iff, differingBits_eq_zero.mpr ha.symm]
  exact Nat.pos_of_ne_zero fun h => hb (differingBits_eq_zero.mp h).symm

theorem not_own_of_nearer (h : Nearer target b.peer.nodeId a.peer.nodeId) : a.peer.nodeId.bytes ≠ target.bytes := by
  intro ha
  rw [nearer_iff, differingBits_eq_zero.mpr ha.symm] at h
  exact Nat.not_lt_zero _ h

theorem place_lt_of_ownFirst (ha : a ∈ r.ownFirst target) (hb : b ∈ r.nodes) (hother : b.peer.nodeId.bytes ≠ target.bytes) :
    r.place target a < r.place target b := by
  obtain ⟨ha, hown⟩ := List.mem_filter.mp ha
  obtain ⟨hown, hfirst⟩ := of_decide_eq_true hown
  have hzero := distance_own hown
  by_cases htop : b.peer.nodeId.bytes.msb = target.bytes.msb
  · have hle := differingBits_le target b.peer.nodeId
    have hne := mt differingBits_eq_top.mp (not_not.mpr htop)
    have hdistance := distance_other hother
    exact place_lt_of_distance_lt ha (by omega)
  · exact place_lt_of_before hb (hfirst b hb htop) (by omega)

theorem exists_before_own (ha : a ∈ r.nodes) (hown : a.peer.nodeId.bytes = target.bytes) (hnot : a ∉ r.ownFirst target) :
    ∃ b ∈ r.nodes, b.peer.nodeId.bytes ≠ target.bytes ∧ r.place target b < r.place target a := by
  have hlate : ¬ ∀ b ∈ r.nodes, b.peer.nodeId.bytes.msb ≠ target.bytes.msb → r.nodes.idxOf a < r.nodes.idxOf b :=
    fun h => hnot (List.mem_filter.mpr ⟨ha, decide_eq_true ⟨hown, h⟩⟩)
  push Not at hlate
  obtain ⟨b, hb, htop, hle⟩ := hlate
  have hother : b.peer.nodeId.bytes ≠ target.bytes := fun h => htop (congrArg BitVec.msb h)
  refine ⟨b, hb, hother, place_lt_of_before ha (lt_of_le_of_ne hle fun heq => ?_) ?_⟩
  · rw [(List.idxOf_inj hb).mp heq] at hother
    exact hother hown
  · rw [distance_top htop]
    exact Nat.zero_le _

theorem closest_of_equallyFar (h : EquallyFar r target count) (ha : a ∈ r.nodes) (hb : b ∈ r.nodes)
    (hreturned : r.place target a < min count r.k) (hab : r.place target a < r.place target b) :
    ¬ Nearer target b.peer.nodeId a.peer.nodeId := by
  intro hnear
  have hother := not_own_of_nearer hnear
  rcases h with hroom | ⟨hequal, hfirst⟩
  · -- All of the own nodes come before `a`, for which there is no room then.
    have hsubset : r.ownFirst target ⊆ (r.sortedNodes target).take (r.place target a) := by
      intro c hc
      have hc' := (r.sortedNodes_perm target).mem_iff.mpr (List.mem_of_mem_filter hc)
      exact (List.mem_take_iff_idxOf_lt hc').mpr (place_lt_of_ownFirst hc ha hother)
    have hlength := (r.nodup_ownFirst target).length_le_of_subset hsubset
    have htake := List.length_take_le (r.place target a) (r.sortedNodes target)
    omega
  · by_cases hown : b.peer.nodeId.bytes = target.bytes
    · have hba := place_lt_of_ownFirst (hfirst b hb hown) ha hother
      omega
    · exact hequal b hb a ha hown hother hnear

theorem equallyFar_of_closest
    (h : ∀ a ∈ r.nodes, ∀ b ∈ r.nodes, r.place target a < min count r.k → r.place target a < r.place target b →
      ¬ Nearer target b.peer.nodeId a.peer.nodeId) : EquallyFar r target count := by
  refine or_iff_not_imp_left.mpr fun hroom => ?_
  rcases (r.nodes.filter fun node => node.peer.nodeId.bytes ≠ target.bytes).toFinset.eq_empty_or_nonempty with
    hnone | hsome
  · have hall : ∀ a ∈ r.nodes, a.peer.nodeId.bytes = target.bytes := by
      simpa [List.filter_eq_nil_iff] using hnone
    refine ⟨fun a ha b hb hother => (hother (hall a ha)).elim, fun a ha hown => ?_⟩
    exact List.mem_filter.mpr ⟨ha, decide_eq_true ⟨hown, fun b hb htop => (htop (congrArg BitVec.msb (hall b hb))).elim⟩⟩
  -- `w` is the first node that is not the target's own.
  obtain ⟨w, hw, hmin⟩ := Finset.exists_min_image _ (r.place target) hsome
  simp only [List.mem_toFinset, List.mem_filter, decide_eq_true_eq, and_imp] at hw hmin
  obtain ⟨hw, hother⟩ := hw
  have hsorted := (r.sortedNodes_perm target).mem_iff.mpr hw
  have hreturned : r.place target w < min count r.k := by
    have hsubset : (r.sortedNodes target).take (r.place target w) ⊆ r.ownFirst target := by
      intro c hc
      have hc' := (r.sortedNodes_perm target).mem_iff.mp (List.mem_of_mem_take hc)
      have hlt : r.place target c < r.place target w := (List.mem_take_iff_idxOf_lt (List.mem_of_mem_take hc)).mp hc
      by_contra hnot
      have hown : c.peer.nodeId.bytes = target.bytes := by
        by_contra hne
        exact Nat.not_lt.mpr (hmin c hc' hne) hlt
      obtain ⟨b, hb, hb', hbc⟩ := exists_before_own hc' hown hnot
      exact Nat.not_lt.mpr (hmin b hb hb') (hbc.trans hlt)
    have hnodup : (r.sortedNodes target).Nodup := (r.sortedNodes_perm target).nodup_iff.mpr r.nodup_nodes
    have hlength := (hnodup.sublist (List.take_sublist _ _)).length_le_of_subset hsubset
    have hlt : r.place target w < (r.sortedNodes target).length := List.idxOf_lt_length_of_mem hsorted
    rw [List.length_take] at hlength
    omega
  have hlevel : ∀ a ∈ r.nodes, a.peer.nodeId.bytes ≠ target.bytes →
      differingBits target a.peer.nodeId = differingBits target w.peer.nodeId := by
    intro a ha hne
    rcases Nat.lt_or_eq_of_le (hmin a ha hne) with hlt | heq
    · have hle := distance_le_of_place_lt ha hlt
      have hnear := h w hw a ha hreturned hlt
      rw [nearer_iff] at hnear
      rw [distance_other hother, distance_other hne] at hle
      have hwle := differingBits_le target w.peer.nodeId
      have hale := differingBits_le target a.peer.nodeId
      omega
    · rw [(List.idxOf_inj hsorted).mp heq]
  refine ⟨fun a ha b hb hane hbne => ?_, fun a ha hown => ?_⟩
  · rw [nearer_iff, hlevel a ha hane, hlevel b hb hbne]
    exact Nat.lt_irrefl _
  · by_contra hnot
    obtain ⟨b, hb, hb', hba⟩ := exists_before_own ha hown hnot
    exact h w hw a ha hreturned ((hmin b hb hb').trans_lt hba) (nearer_own hown hother)

/-- A lookup returns the closest peers, nearest first, if all peers other than the target are equally far and come after
it, or if it returns the target's own nodes only, and in no other case. -/
theorem findClosest_closest (r : DhtPeerRegistry) (target : NodeId) (count : Nat) :
    ClosestPeers r target count (r.findClosest target count) ↔ EquallyFar r target count :=
  closestPeers_iff.trans
    ⟨equallyFar_of_closest, fun h _ ha _ hb hreturned hab => closest_of_equallyFar h ha hb hreturned hab⟩

/-! ## Two peers -/

def entryOf (bytes : Bytes 32) : DhtPeerEntry := ⟨⟨⟨.fromBytes bytes⟩, [], 0, 0⟩, 0, 0, 0, 0, none⟩

def pairOf (x y : Bytes 32) : DhtPeerRegistry := (((new 20).upsert 0 (entryOf x)).2.upsert 0 (entryOf y)).2

theorem findClosest_closest_two :
    EquallyFar (pairOf 2 3) (.fromBytes 0) 1 ∧ EquallyFar (pairOf 0 3) (.fromBytes 0) 1 ∧
      ClosestPeers (pairOf 2 3) (.fromBytes 0) 1 ((pairOf 2 3).findClosest (.fromBytes 0) 1) ∧
      ClosestPeers (pairOf 0 3) (.fromBytes 0) 1 ((pairOf 0 3).findClosest (.fromBytes 0) 1) :=
  have hlevel : EquallyFar (pairOf 2 3) (.fromBytes 0) 1 := by decide +kernel
  have hown : EquallyFar (pairOf 0 3) (.fromBytes 0) 1 := by decide +kernel
  ⟨hlevel, hown, (findClosest_closest _ _ _).mpr hlevel, (findClosest_closest _ _ _).mpr hown⟩

/-- Of the peers 1 and 2 ^ 255, a lookup for the one peer closest to 0 returns the second. -/
theorem findClosest_returns_farther :
    (pairOf 1 (2 ^ 255)).findClosest (.fromBytes 0) 1 = [(entryOf (2 ^ 255)).node] ∧
      ¬ ClosestPeers (pairOf 1 (2 ^ 255)) (.fromBytes 0) 1 ((pairOf 1 (2 ^ 255)).findClosest (.fromBytes 0) 1) := by
  have hvalues : (pairOf 1 (2 ^ 255)).peers.values = [entryOf (2 ^ 255), entryOf 1] := by decide +kernel
  have hdistance : (fromBytes 0).kademliaDistance (fromBytes (2 ^ 255)) ≤ (fromBytes 0).kademliaDistance (fromBytes 1) := by
    decide +kernel
  have hfind : (pairOf 1 (2 ^ 255)).findClosest (.fromBytes 0) 1 = [(entryOf (2 ^ 255)).node] := by
    rw [findClosest, byDistance, hvalues, List.mergeSort_of_pairwise (by simpa [entryOf] using hdistance)]
    decide +kernel
  have hnear : Nearer (.fromBytes 0) (entryOf 1).node.peer.nodeId (entryOf (2 ^ 255)).node.peer.nodeId := by
    decide +kernel
  refine ⟨hfind, fun h => ?_⟩
  rw [hfind] at h
  have hentry : entryOf 1 ∈ (pairOf 1 (2 ^ 255)).peers.values := by
    rw [hvalues]
    exact List.mem_cons_of_mem _ List.mem_cons_self
  exact h.closest _ hentry (by decide +kernel) _ List.mem_cons_self hnear

end DhtPeerRegistry

end SovereignNetwork.Dht
