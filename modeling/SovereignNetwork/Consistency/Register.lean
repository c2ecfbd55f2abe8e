import Mathlib.Data.Prod.Lex
import SovereignNetwork.Dht.NodeId
import SovereignNetwork.Lib.HashMap
import SovereignNetwork.Lib.KeepsGreater
import SovereignNetwork.Lib.Run
import SovereignNetwork.Lib.Table

/-!
# Last-writer-wins registers

A register takes over the clock and the node id of the value it adopts, so every clock counts the updates under one node
id only.
-/

namespace SovereignNetwork.Consistency

open Lib Dht

/-! ## Vector clocks -/

structure VectorClock where
  clocks : HashMap NodeId Nat

namespace VectorClock

instance : DecidableEq VectorClock := fun a b =>
  decidable_of_iff (a.clocks.entries = b.clocks.entries)
    ⟨fun h => congrArg VectorClock.mk (AList.ext h), fun h => congrArg (fun c => c.clocks.entries) h⟩

def new : VectorClock := ⟨∅⟩

def get (c : VectorClock) (id : NodeId) : Nat := (c.clocks.lookup id).getD 0

/-- A counter at its greatest value is left there. -/
def increment (c : VectorClock) (id : NodeId) : VectorClock :=
  ⟨c.clocks.insert id (if c.get id = 2 ^ 64 - 1 then c.get id else c.get id + 1)⟩

def happensBefore (a b : VectorClock) : Bool :=
  a.clocks.entries.all (fun e => e.2 ≤ b.get e.1) &&
    (a.clocks.entries.any (fun e => e.2 < b.get e.1) ||
      b.clocks.entries.any fun e => (a.clocks.lookup e.1).isNone && 0 < e.2)

def happensAfter (a b : VectorClock) : Bool := b.happensBefore a

/-- The same entries, in whatever order the maps hold them. -/
def sameEntries (a b : VectorClock) : Bool :=
  (a.clocks.keys ++ b.clocks.keys).all fun id => a.clocks.lookup id = b.clocks.lookup id

def concurrent (a b : VectorClock) : Bool := !a.happensBefore b && !b.happensBefore a && !a.sameEntries b

def fromNode (id : NodeId) (value : Nat) : VectorClock := ⟨AList.singleton id value⟩

variable {i j : NodeId} {k l : Nat}

theorem lookup_fromNode (i j : NodeId) (k : Nat) : (fromNode i k).clocks.lookup j = if j = i then some k else none :=
  HashMap.lookup_insert_eq_ite ∅ i j k

theorem get_fromNode (i j : NodeId) (k : Nat) : (fromNode i k).get j = if j = i then k else 0 := by
  rw [get, lookup_fromNode]
  split <;> rfl

theorem happensBefore_fromNode (hk : 0 < k) : (fromNode i k).happensBefore (fromNode j l) ↔ i = j ∧ k < l := by
  have hentries : ∀ (i : NodeId) (k : Nat), (fromNode i k).clocks.entries = [⟨i, k⟩] := fun _ _ => rfl
  by_cases h : i = j
  · subst h
    simpa [happensBefore, hentries, get_fromNode, lookup_fromNode] using fun hlt : k < l => Nat.le_of_lt hlt
  · simp [happensBefore, hentries, get_fromNode, h, Nat.ne_of_gt hk]

theorem sameEntries_fromNode : (fromNode i k).sameEntries (fromNode j l) ↔ i = j ∧ k = l := by
  have hkeys : ∀ (i : NodeId) (k : Nat), (fromNode i k).clocks.keys = [i] := fun _ _ => rfl
  by_cases h : i = j
  · subst h
    simp [sameEntries, hkeys, lookup_fromNode]
  · simp [sameEntries, hkeys, lookup_fromNode, h]

theorem concurrent_fromNode (hk : 0 < k) (hl : 0 < l) : (fromNode i k).concurrent (fromNode j l) ↔ i ≠ j := by
  rw [concurrent, Bool.and_eq_true, Bool.and_eq_true, Bool.not_eq_true', Bool.not_eq_true', Bool.not_eq_true',
    ← Bool.not_eq_true, ← Bool.not_eq_true, ← Bool.not_eq_true, happensBefore_fromNode hk, happensBefore_fromNode hl,
    sameEntries_fromNode]
  constructor
  · rintro ⟨⟨hbefore, hafter⟩, hsame⟩ rfl
    have hle : l ≤ k := Nat.not_lt.mp fun h => hbefore ⟨rfl, h⟩
    have hge : k ≤ l := Nat.not_lt.mp fun h => hafter ⟨rfl, h⟩
    exact hsame ⟨rfl, Nat.le_antisymm hge hle⟩
  · intro h
    exact ⟨⟨fun heq => h heq.1, fun heq => h heq.1.symm⟩, fun heq => h heq.1⟩

end VectorClock

/-! ## Registers -/

structure LWWRegister (α : Type) where
  value : α
  timestamp : VectorClock
  nodeId : NodeId
  deriving DecidableEq

namespace LWWRegister

variable {α : Type} {a b c r : LWWRegister α}

def new (value : α) (nodeId : NodeId) : LWWRegister α := ⟨value, VectorClock.new.increment nodeId, nodeId⟩

/-- The node id is the one of the value that was adopted last. -/
def set (r : LWWRegister α) (value : α) : LWWRegister α :=
  { r with value := value, timestamp := r.timestamp.increment r.nodeId }

/-- Between concurrent clocks the bytes of the node ids decide. -/
def adopts (r other : LWWRegister α) : Bool :=
  if other.timestamp.happensAfter r.timestamp then true
  else if other.timestamp.concurrent r.timestamp then r.nodeId.bytes < other.nodeId.bytes
  else false

def merge (r other : LWWRegister α) : LWWRegister α :=
  if r.adopts other then { value := other.value, timestamp := other.timestamp, nodeId := other.nodeId } else r

/-! ## Merging keeps the greater register -/

/-- The clock counts under the register's own node id. -/
def Stamped (r : LWWRegister α) : Prop := ∃ k, 0 < k ∧ r.timestamp = .fromNode r.nodeId k

def key (r : LWWRegister α) : ℕ ×ₗ ℕ := toLex (r.nodeId.bytes.toNat, r.timestamp.get r.nodeId)

theorem key_lt_iff : a.key < b.key ↔ a.nodeId.bytes < b.nodeId.bytes ∨
    a.nodeId.bytes = b.nodeId.bytes ∧ a.timestamp.get a.nodeId < b.timestamp.get b.nodeId := by
  rw [key, key, Prod.Lex.toLex_lt_toLex, BitVec.lt_def, BitVec.toNat_inj]

/-- Node ids are told apart by their bytes. -/
def SameIds (a b : LWWRegister α) : Prop := a.nodeId.bytes = b.nodeId.bytes → a.nodeId = b.nodeId

theorem adopts_iff (ha : a.Stamped) (hb : b.Stamped) (hids : SameIds a b) : a.adopts b ↔ a.key < b.key := by
  obtain ⟨k, hk, hak⟩ := ha
  obtain ⟨l, hl, hbl⟩ := hb
  rw [key_lt_iff, adopts, VectorClock.happensAfter, hak, hbl, VectorClock.get_fromNode, VectorClock.get_fromNode,
    if_pos rfl, if_pos rfl]
  by_cases h : a.nodeId = b.nodeId
  · have hbefore := VectorClock.happensBefore_fromNode (i := a.nodeId) (j := b.nodeId) (k := k) (l := l) hk
    have hconcurrent := VectorClock.concurrent_fromNode (i := b.nodeId) (j := a.nodeId) (k := l) (l := k) hl hk
    by_cases hlt : k < l
    · rw [if_pos (hbefore.mpr ⟨h, hlt⟩)]
      exact ⟨fun _ => .inr ⟨congrArg NodeId.bytes h, hlt⟩, fun _ => rfl⟩
    · rw [if_neg fun hb => hlt (hbefore.mp hb).2, if_neg fun hc => hconcurrent.mp hc h.symm]
      refine ⟨fun hfalse => (by cases hfalse), fun hor => ?_⟩
      rcases hor with hbytes | ⟨-, hlt'⟩
      · rw [h] at hbytes
        exact absurd hbytes (BitVec.lt_irrefl _)
      · exact absurd hlt' hlt
  · have hbefore := VectorClock.happensBefore_fromNode (i := a.nodeId) (j := b.nodeId) (k := k) (l := l) hk
    have hconcurrent := VectorClock.concurrent_fromNode (i := b.nodeId) (j := a.nodeId) (k := l) (l := k) hl hk
    rw [if_neg fun hb => h (hbefore.mp hb).1, if_pos (hconcurrent.mpr (Ne.symm h)), decide_eq_true_eq]
    exact ⟨.inl, fun hor => hor.resolve_right fun heq => h (hids heq.1)⟩

theorem merge_eq (ha : a.Stamped) (hb : b.Stamped) (hids : SameIds a b) :
    a.merge b = if a.key < b.key then b else a := by
  rw [merge]
  by_cases h : a.key < b.key
  · rw [if_pos ((adopts_iff ha hb hids).mpr h), if_pos h]
  · rw [if_neg fun hadopts => h ((adopts_iff ha hb hids).mp hadopts), if_neg h]

theorem stamped_new (value : α) (id : NodeId) : (new value id).Stamped := ⟨1, Nat.one_pos, rfl⟩

theorem set_timestamp {k : Nat} (h : r.timestamp = .fromNode r.nodeId k) (value : α) :
    (r.set value).timestamp = .fromNode r.nodeId (if k = 2 ^ 64 - 1 then k else k + 1) := by
  have hget : r.timestamp.get r.nodeId = k := by rw [h, VectorClock.get_fromNode, if_pos rfl]
  show VectorClock.increment _ _ = _
  rw [VectorClock.increment, hget, h, VectorClock.fromNode, VectorClock.fromNode, AList.insert_singleton_eq]

theorem Stamped.set (h : r.Stamped) (value : α) : (r.set value).Stamped := by
  obtain ⟨k, hk, heq⟩ := h
  refine ⟨if k = 2 ^ 64 - 1 then k else k + 1, ?_, set_timestamp heq value⟩
  split <;> omega

theorem key_le_set (h : r.Stamped) (value : α) : r.key ≤ (r.set value).key := by
  obtain ⟨k, hk, heq⟩ := h
  have hset := set_timestamp heq value
  rw [key, key, hset, heq, Prod.Lex.toLex_le_toLex]
  refine .inr ⟨rfl, ?_⟩
  show (VectorClock.fromNode _ _).get _ ≤ (VectorClock.fromNode _ _).get r.nodeId
  rw [VectorClock.get_fromNode, VectorClock.get_fromNode, if_pos rfl, if_pos rfl]
  split <;> omega

theorem timestamp_eq_of_key (ha : a.Stamped) (hb : b.Stamped) (hids : SameIds a b) (h : a.key = b.key) :
    a.timestamp = b.timestamp := by
  obtain ⟨k, -, hak⟩ := ha
  obtain ⟨l, -, hbl⟩ := hb
  have hkey : (a.nodeId.bytes.toNat, a.timestamp.get a.nodeId) = (b.nodeId.bytes.toNat, b.timestamp.get b.nodeId) := h
  have hid := hids (BitVec.eq_of_toNat_eq (Prod.mk.inj hkey).1)
  have hget := (Prod.mk.inj hkey).2
  rw [hak, hbl, VectorClock.get_fromNode, VectorClock.get_fromNode, if_pos rfl, if_pos rfl] at hget
  rw [hak, hbl, hid, hget]

end LWWRegister

/-! ## Replicas -/

/-- A register as it was at some time, with the update that wrote it and the updates known there. -/
structure RegisterCopy (α : Type) where
  register : LWWRegister α
  update : Nat
  seen : List Nat

structure RegisterUpdate (α : Type) where
  register : LWWRegister α
  past : List Nat

/-- A value that a merge replaced, and the one it was replaced by, as numbers of their updates. -/
structure Replacement where
  old : Nat
  new : Nat
  deriving DecidableEq

/-- The replicas, all their copies up to now, and the numbered updates. -/
structure Replicas (α : Type) where
  replicas : List (RegisterCopy α)
  copies : List (RegisterCopy α)
  updates : List (RegisterUpdate α)
  replacements : List Replacement

inductive RegisterEvent (α : Type)
  | set (replica : Nat) (value : α)
  | merge (replica copy : Nat)

namespace Replicas

variable {α : Type}

def firstCopies (initial : List (α × NodeId)) : List (RegisterCopy α) :=
  initial.zipIdx.map fun e => ⟨.new e.1.1 e.1.2, e.2, [e.2]⟩

def start (initial : List (α × NodeId)) : Replicas α where
  replicas := firstCopies initial
  copies := firstCopies initial
  updates := initial.map fun e => ⟨.new e.1 e.2, []⟩
  replacements := []

def afterSet (s : Replicas α) (replica : Nat) (copy : RegisterCopy α) (value : α) : Replicas α :=
  let written : RegisterCopy α := ⟨copy.register.set value, s.updates.length, s.updates.length :: copy.seen⟩
  { s with
    replicas := s.replicas.set replica written
    copies := s.copies ++ [written]
    updates := s.updates ++ [⟨copy.register.set value, copy.seen⟩] }

/-- What is known at the other replica becomes known, also where its value is not adopted. -/
def mergedCopy (copy other : RegisterCopy α) : RegisterCopy α :=
  ⟨copy.register.merge other.register, if copy.register.adopts other.register then other.update else copy.update,
    copy.seen ++ other.seen⟩

def afterMerge (s : Replicas α) (replica : Nat) (copy other : RegisterCopy α) : Replicas α :=
  { s with
    replicas := s.replicas.set replica (mergedCopy copy other)
    copies := s.copies ++ [mergedCopy copy other]
    replacements := s.replacements ++
      if copy.register.adopts other.register then [⟨copy.update, other.update⟩] else [] }

def step (s : Replicas α) : RegisterEvent α → Replicas α
  | .set replica value => (s.replicas[replica]?).elim s fun copy => s.afterSet replica copy value
  | .merge replica copy =>
    (s.replicas[replica]?).elim s fun own => (s.copies[copy]?).elim s fun other => s.afterMerge replica own other

/-- No two updates get the same timestamp. -/
def FreshTimestamps (s : Replicas α) : RegisterEvent α → Prop
  | .set replica value => ∀ copy ∈ s.replicas[replica]?, ∀ u ∈ s.updates,
      u.register.timestamp ≠ (copy.register.set value).timestamp
  | .merge _ _ => True

/-- The first update was known where the second one was made. -/
def Precedes (s : Replicas α) (first second : Nat) : Prop := ∃ u ∈ s.updates[second]?, first ∈ u.past

/-! ## Whole runs -/

variable {ids : List NodeId} {s : Replicas α} {updates : List (RegisterUpdate α)} {copy other : RegisterCopy α}

/-- A copy is the register of its update, which no known update exceeds. -/
structure Known (updates : List (RegisterUpdate α)) (copy : RegisterCopy α) : Prop where
  written : ∃ u ∈ updates[copy.update]?, u.register = copy.register
  seen : ∀ i ∈ copy.seen, ∃ u ∈ updates[i]?, u.register.key ≤ copy.register.key

structure UpdateOk (ids : List NodeId) (updates : List (RegisterUpdate α)) (u : RegisterUpdate α) : Prop where
  stamped : u.register.Stamped
  id : u.register.nodeId ∈ ids
  past : ∀ i ∈ u.past, ∃ u' ∈ updates[i]?, u'.register.key ≤ u.register.key

structure Inv (ids : List NodeId) (s : Replicas α) : Prop where
  replicas : ∀ (i : Nat) c, s.replicas[i]? = some c → Known s.updates c
  copies : ∀ (i : Nat) c, s.copies[i]? = some c → Known s.updates c
  updates : ∀ (i : Nat) u, s.updates[i]? = some u → UpdateOk ids s.updates u
  replacements : ∀ p ∈ s.replacements, ∃ old ∈ s.updates[p.old]?, ∃ new ∈ s.updates[p.new]?,
    old.register.key < new.register.key

theorem Known.concat (h : Known updates copy) (u : RegisterUpdate α) : Known (updates ++ [u]) copy where
  written := h.written.imp fun _ hu => ⟨getElem?_concat _ hu.1, hu.2⟩
  seen i hi := (h.seen i hi).imp fun _ hu => ⟨getElem?_concat _ hu.1, hu.2⟩

theorem UpdateOk.concat {u : RegisterUpdate α} (h : UpdateOk ids updates u) (u' : RegisterUpdate α) :
    UpdateOk ids (updates ++ [u']) u where
  stamped := h.stamped
  id := h.id
  past i hi := (h.past i hi).imp fun _ hu => ⟨getElem?_concat _ hu.1, hu.2⟩

theorem Inv.registerOk (h : Inv ids s) (hcopy : Known s.updates copy) :
    copy.register.Stamped ∧ copy.register.nodeId ∈ ids := by
  obtain ⟨u, hu, heq⟩ := hcopy.written
  have hok := h.updates _ u hu
  exact ⟨heq ▸ hok.stamped, heq ▸ hok.id⟩

theorem inv_afterSet {replica : Nat} (h : Inv ids s) (hcopy : s.replicas[replica]? = some copy) (value : α) :
    Inv ids (s.afterSet replica copy value) := by
  have hknown := h.replicas replica copy hcopy
  obtain ⟨hstamped, hid⟩ := h.registerOk hknown
  have hle := LWWRegister.key_le_set hstamped value
  have hlast : (s.updates ++ [⟨copy.register.set value, copy.seen⟩])[s.updates.length]? =
      some ⟨copy.register.set value, copy.seen⟩ := by simp
  have hseen : ∀ i ∈ copy.seen, ∃ u ∈ (s.updates ++ [⟨copy.register.set value, copy.seen⟩])[i]?,
      u.register.key ≤ (copy.register.set value).key := by
    intro i hi
    obtain ⟨u, hu, hkey⟩ := hknown.seen i hi
    exact ⟨u, getElem?_concat _ hu, hkey.trans hle⟩
  have hwritten : Known (s.updates ++ [⟨copy.register.set value, copy.seen⟩])
      ⟨copy.register.set value, s.updates.length, s.updates.length :: copy.seen⟩ := by
    refine ⟨⟨_, hlast, rfl⟩, fun i hi => ?_⟩
    rcases List.mem_cons.mp hi with rfl | hi
    · exact ⟨_, hlast, le_refl _⟩
    · exact hseen i hi
  refine ⟨?_, ?_, ?_, fun p hp => ?_⟩
  · exact forall_set (fun i c hc => (h.replicas i c hc).concat _) hcopy hwritten
  · exact forall_concat (fun i c hc => (h.copies i c hc).concat _) hwritten
  · exact forall_concat (fun i u hu => (h.updates i u hu).concat _) ⟨hstamped.set value, hid, hseen⟩
  · obtain ⟨old, hold, new, hnew, hlt⟩ := h.replacements p hp
    exact ⟨old, getElem?_concat _ hold, new, getElem?_concat _ hnew, hlt⟩

/-- Node ids of the list are told apart by their bytes. -/
def ByBytes (ids : List NodeId) : Prop := ∀ x ∈ ids, ∀ y ∈ ids, x.bytes = y.bytes → x = y

theorem Inv.adopts_iff (h : Inv ids s) (hids : ByBytes ids) (hcopy : Known s.updates copy) (hother : Known s.updates other) :
    copy.register.adopts other.register ↔ copy.register.key < other.register.key :=
  have hc := h.registerOk hcopy
  have ho := h.registerOk hother
  LWWRegister.adopts_iff hc.1 ho.1 (hids _ hc.2 _ ho.2)

theorem Inv.known_mergedCopy (h : Inv ids s) (hids : ByBytes ids) (hcopy : Known s.updates copy)
    (hother : Known s.updates other) : Known s.updates (mergedCopy copy other) := by
  have hiff := h.adopts_iff hids hcopy hother
  unfold mergedCopy LWWRegister.merge
  by_cases hadopts : copy.register.adopts other.register
  · have hle := (hiff.mp hadopts).le
    rw [if_pos hadopts, if_pos hadopts]
    refine ⟨hother.written, fun i hi => ?_⟩
    rcases List.mem_append.mp hi with hi | hi
    · exact (hcopy.seen i hi).imp fun u hu => ⟨hu.1, hu.2.trans hle⟩
    · exact hother.seen i hi
  · have hle := not_lt.mp fun hlt => hadopts (hiff.mpr hlt)
    rw [if_neg hadopts, if_neg hadopts]
    refine ⟨hcopy.written, fun i hi => ?_⟩
    rcases List.mem_append.mp hi with hi | hi
    · exact hcopy.seen i hi
    · exact (hother.seen i hi).imp fun u hu => ⟨hu.1, hu.2.trans hle⟩

theorem inv_afterMerge {replica index : Nat} (h : Inv ids s) (hids : ByBytes ids)
    (hcopy : s.replicas[replica]? = some copy) (hother : s.copies[index]? = some other) :
    Inv ids (s.afterMerge replica copy other) := by
  have hknown := h.replicas replica copy hcopy
  have hknown' := h.copies index other hother
  have hmerged := h.known_mergedCopy hids hknown hknown'
  refine ⟨forall_set h.replicas hcopy hmerged, forall_concat h.copies hmerged, h.updates, fun p hp => ?_⟩
  rcases List.mem_append.mp hp with hp | hp
  · exact h.replacements p hp
  · split at hp
    · next hadopts =>
      rw [List.mem_singleton.mp hp]
      obtain ⟨old, hold, heq⟩ := hknown.written
      obtain ⟨new, hnew, heq'⟩ := hknown'.written
      refine ⟨old, hold, new, hnew, ?_⟩
      rw [heq, heq']
      exact (h.adopts_iff hids hknown hknown').mp hadopts
    · cases hp

theorem inv_step (h : Inv ids s) (hids : ByBytes ids) (e : RegisterEvent α) : Inv ids (s.step e) := by
  cases e with
  | set replica value =>
    rw [step]
    cases hcopy : s.replicas[replica]? with
    | none => exact h
    | some copy => exact inv_afterSet h hcopy value
  | merge replica index =>
    rw [step]
    cases hcopy : s.replicas[replica]? with
    | none => exact h
    | some copy =>
      cases hother : s.copies[index]? with
      | none =>
        rw [Option.elim_some, Option.elim_none]
        exact h
      | some other => exact inv_afterMerge h hids hcopy hother

theorem inv_start (initial : List (α × NodeId)) : Inv (initial.map Prod.snd) (start initial) := by
  have hfirst : ∀ (i : Nat) c, (firstCopies initial)[i]? = some c → Known (start initial).updates c := by
    intro i c hc
    simp only [firstCopies, List.getElem?_map, List.getElem?_zipIdx, Option.map_map, Option.map_eq_some_iff] at hc
    obtain ⟨e, he, rfl⟩ := hc
    have hu : (start initial).updates[0 + i]? = some ⟨.new e.1 e.2, []⟩ := by
      rw [Nat.zero_add, start, List.getElem?_map, he]
      rfl
    refine ⟨⟨_, hu, rfl⟩, fun j hj => ?_⟩
    rw [List.mem_singleton.mp hj]
    exact ⟨_, hu, le_refl _⟩
  refine ⟨hfirst, hfirst, fun i u hu => ?_, fun p hp => (by cases hp)⟩
  rw [start, List.getElem?_map, Option.map_eq_some_iff] at hu
  obtain ⟨e, he, rfl⟩ := hu
  exact ⟨LWWRegister.stamped_new .., List.mem_map_of_mem (List.mem_of_getElem? he), fun _ h => (by cases h)⟩

theorem inv_run (initial : List (α × NodeId)) (hids : ByBytes (initial.map Prod.snd)) (events : List (RegisterEvent α)) :
    Inv (initial.map Prod.snd) (run step (start initial) events) :=
  (Along.of_forall (fun _ _ => trivial) (start initial) events).invariant (fun _ e _ h => inv_step h hids e)
    (inv_start initial)

/-! ## Convergence -/

def Fresh (s : Replicas α) : Prop := (s.updates.map fun u => u.register.timestamp).Nodup

theorem fresh_step {e : RegisterEvent α} (hfresh : FreshTimestamps s e) (h : s.Fresh) : (s.step e).Fresh := by
  cases e with
  | set replica value =>
    rw [step]
    cases hcopy : s.replicas[replica]? with
    | none => exact h
    | some copy =>
      show (List.map _ (s.updates ++ [_])).Nodup
      rw [List.map_append, List.map_singleton]
      refine List.nodup_append.mpr ⟨h, List.nodup_singleton _, ?_⟩
      intro t ht t' ht'
      obtain ⟨u, hu, rfl⟩ := List.mem_map.mp ht
      rw [List.mem_singleton.mp ht']
      exact hfresh copy hcopy u hu
  | merge replica index =>
    rw [step]
    cases s.replicas[replica]? with
    | none => exact h
    | some copy =>
      cases s.copies[index]? with
      | none =>
        rw [Option.elim_some, Option.elim_none]
        exact h
      | some other => exact h

theorem fresh_start {initial : List (α × NodeId)} (hids : (initial.map fun e => e.2.bytes).Nodup) : (start initial).Fresh := by
  rw [Fresh, start, List.map_map]
  refine List.Nodup.map_on ?_ hids.of_map
  intro e he e' he' heq
  have hids' := List.inj_on_of_nodup_map hids
  have hclock : VectorClock.fromNode e.2 1 = VectorClock.fromNode e'.2 1 := heq
  have hsame := (VectorClock.sameEntries_fromNode (i := e.2) (j := e'.2) (k := 1) (l := 1)).mp (by
    rw [hclock]
    exact VectorClock.sameEntries_fromNode.mpr ⟨rfl, rfl⟩)
  exact hids' he he' (congrArg NodeId.bytes hsame.1)

/-- Some update left this register. -/
def Reached (s : Replicas α) (r : LWWRegister α) : Prop := ∃ u ∈ s.updates, u.register = r

theorem Inv.reached (h : Inv ids s) (hcopy : copy ∈ s.copies) : s.Reached copy.register := by
  obtain ⟨i, hi⟩ := List.mem_iff_getElem?.mp hcopy
  obtain ⟨u, hu, heq⟩ := (h.copies i copy hi).written
  exact ⟨u, List.mem_of_getElem? hu, heq⟩

theorem Inv.keepsGreater (h : Inv ids s) (hids : ByBytes ids) (hfresh : s.Fresh) :
    KeepsGreater LWWRegister.key (fun a b : LWWRegister α => a.merge b) s.Reached := by
  have hok : ∀ u ∈ s.updates, UpdateOk ids s.updates u := by
    intro u hu
    obtain ⟨i, hi⟩ := List.mem_iff_getElem?.mp hu
    exact h.updates i u hi
  constructor
  · rintro _ _ ⟨u, hu, rfl⟩ ⟨u', hu', rfl⟩
    exact LWWRegister.merge_eq (hok u hu).stamped (hok u' hu').stamped (hids _ (hok u hu).id _ (hok u' hu').id)
  · rintro _ _ ⟨u, hu, rfl⟩ ⟨u', hu', rfl⟩ hkey
    have htimestamp := LWWRegister.timestamp_eq_of_key (hok u hu).stamped (hok u' hu').stamped
      (hids _ (hok u hu).id _ (hok u' hu').id) hkey
    rw [List.inj_on_of_nodup_map hfresh hu hu' htimestamp]

/-- Merging the registers of a run is idempotent, commutative and associative if no two updates get the same timestamp, and
no value is replaced by one that causally precedes it. -/
theorem registers_converge (initial : List (α × NodeId)) (events : List (RegisterEvent α))
    (hids : (initial.map fun e => e.2.bytes).Nodup) :
    (Along step FreshTimestamps (start initial) events →
      ∀ a ∈ (run step (start initial) events).copies, ∀ b ∈ (run step (start initial) events).copies,
      ∀ c ∈ (run step (start initial) events).copies,
        a.register.merge a.register = a.register ∧ a.register.merge b.register = b.register.merge a.register ∧
        (a.register.merge b.register).merge c.register = a.register.merge (b.register.merge c.register)) ∧
    ∀ p ∈ (run step (start initial) events).replacements,
      ¬ (run step (start initial) events).Precedes p.new p.old := by
  have hbytes : ByBytes (initial.map Prod.snd) := by
    rintro _ hx _ hy heq
    obtain ⟨e, he, rfl⟩ := List.mem_map.mp hx
    obtain ⟨e', he', rfl⟩ := List.mem_map.mp hy
    rw [List.inj_on_of_nodup_map hids he he' heq]
  have hinv := inv_run initial hbytes events
  constructor
  · intro hfresh a ha b hb c hc
    have hkeeps := hinv.keepsGreater hbytes
      (hfresh.invariant (fun _ _ hok h => fresh_step hok h) (fresh_start hids))
    exact ⟨hkeeps.idem (hinv.reached ha), hkeeps.comm (hinv.reached ha) (hinv.reached hb),
      hkeeps.assoc (hinv.reached ha) (hinv.reached hb) (hinv.reached hc)⟩
  · rintro p hp ⟨u, hu, hpast⟩
    obtain ⟨old, hold, new, hnew, hlt⟩ := hinv.replacements p hp
    obtain rfl := Option.some.inj (hu.symm.trans hold)
    obtain ⟨u', hu', hle⟩ := (hinv.updates p.old u hu).past p.new hpast
    obtain rfl := Option.some.inj (hu'.symm.trans hnew)
    exact absurd hlt (not_lt.mpr hle)

def twoReplicas : Replicas Nat := start [(10, .fromBytes 1), (20, .fromBytes 2)]

/-- The second replica writes, and the first one adopts what it wrote. -/
def adoption : List (RegisterEvent Nat) := [.set 1 21, .merge 0 2]

theorem adopted_register_converges :
    (run step twoReplicas adoption).replacements = [⟨0, 2⟩] ∧ ¬ (run step twoReplicas adoption).Precedes 2 0 ∧
    ∀ a ∈ (run step twoReplicas adoption).copies, ∀ b ∈ (run step twoReplicas adoption).copies,
      a.register.merge b.register = b.register.merge a.register := by
  have h := registers_converge [(10, NodeId.fromBytes 1), (20, NodeId.fromBytes 2)] adoption (by decide +kernel)
  have hfresh : Along step FreshTimestamps twoReplicas adoption := by
    refine ⟨?_, trivial, trivial⟩
    rintro _ ⟨⟩ u hu
    rcases List.mem_cons.mp hu with rfl | hu
    · decide +kernel
    · rw [List.mem_singleton.mp hu]
      decide +kernel
  have hreplaced : (run step twoReplicas adoption).replacements = [⟨0, 2⟩] := by decide +kernel
  exact ⟨hreplaced, h.2 ⟨0, 2⟩ (hreplaced ▸ List.mem_singleton_self _),
    fun a ha b hb => (h.1 hfresh a ha b hb b hb).2.1⟩

/-- Both replicas write under the node id that the first one has adopted: their timestamps are equal, their values are not,
and each keeps its own. -/
theorem merge_of_adopted_not_commutative :
    ∃ a ∈ (run step twoReplicas [.merge 0 1, .set 0 30, .set 1 40]).copies,
    ∃ b ∈ (run step twoReplicas [.merge 0 1, .set 0 30, .set 1 40]).copies,
      a.register.timestamp = b.register.timestamp ∧ (a.register.merge b.register).value = 30 ∧
        (b.register.merge a.register).value = 40 := by
  decide +kernel

end Replicas

end SovereignNetwork.Consistency
