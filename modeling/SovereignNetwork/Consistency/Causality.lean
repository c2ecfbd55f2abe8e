import Mathlib.Order.Bounds.Basic
import SovereignNetwork.Consistency.Register

/-!
# The order of vector clocks

A node that a clock does not store counts as `0`, and a node may be stored with `0` as well. The order compares values, but
equality compares what is stored.
-/

namespace SovereignNetwork.Consistency

open Lib Dht

inductive ClockOrdering
  | equal
  | before
  | after
  | concurrent
  deriving DecidableEq

namespace VectorClock

def merge (c other : VectorClock) : VectorClock :=
  other.clocks.entries.foldl (fun c e => ⟨c.clocks.insert e.1 (max (c.get e.1) e.2)⟩) c

def compare (a b : VectorClock) : ClockOrdering :=
  if a.sameEntries b then .equal
  else if a.happensBefore b then .before
  else if a.happensAfter b then .after
  else .concurrent

variable {a b c : VectorClock} {id : NodeId}

/-! ## Values -/

theorem lookup_eq_some_get (h : id ∈ c.clocks) : c.clocks.lookup id = some (c.get id) := by
  obtain ⟨value, hvalue⟩ := Option.isSome_iff_exists.mp (AList.lookup_isSome.mpr h)
  rw [get, hvalue, Option.getD_some]

theorem get_of_notMem (h : id ∉ c.clocks) : c.get id = 0 := by
  rw [get, AList.lookup_eq_none.mpr h, Option.getD_none]

theorem mem_of_get_pos (h : 0 < c.get id) : id ∈ c.clocks := by
  by_contra hnot
  exact absurd (get_of_notMem hnot) h.ne'

theorem get_insert (m : HashMap NodeId Nat) (id id' : NodeId) (value : Nat) :
    get ⟨m.insert id value⟩ id' = if id' = id then value else get ⟨m⟩ id' := by
  rw [get, HashMap.lookup_insert_eq_ite]
  split <;> rfl

theorem exists_entry_iff {p : NodeId → Nat → Prop} :
    (∃ e ∈ c.clocks.entries, p e.1 e.2) ↔ ∃ id ∈ c.clocks, p id (c.get id) := by
  constructor
  · rintro ⟨⟨id, value⟩, he, hp⟩
    refine ⟨id, AList.mem_keys.mpr (List.mem_map_of_mem he), ?_⟩
    rwa [get, HashMap.mem_entries_iff.mp he]
  · rintro ⟨id, hmem, hp⟩
    exact ⟨⟨id, c.get id⟩, HashMap.mem_entries_iff.mpr (lookup_eq_some_get hmem), hp⟩

theorem all_entries_iff : (a.clocks.entries.all fun e => e.2 ≤ b.get e.1) = true ↔ a.get ≤ b.get := by
  have hentry := exists_entry_iff (c := a) (p := fun id value => ¬ value ≤ b.get id)
  rw [List.all_eq_true, Pi.le_def]
  simp only [decide_eq_true_eq]
  refine ⟨fun h id => ?_, fun h => ?_⟩
  · by_contra hnot
    have hpos : 0 < a.get id := by omega
    have hmem := mem_of_get_pos hpos
    obtain ⟨e, he, hp⟩ := hentry.mpr ⟨id, hmem, hnot⟩
    exact hp (h e he)
  · by_contra hnot
    push Not at hnot
    obtain ⟨e, he, hp⟩ := hnot
    obtain ⟨id, -, hid⟩ := hentry.mp ⟨e, he, Nat.not_le.mpr hp⟩
    exact hid (h id)

theorem any_entries_iff :
    ((a.clocks.entries.any fun e => e.2 < b.get e.1) ||
      b.clocks.entries.any fun e => (a.clocks.lookup e.1).isNone && 0 < e.2) = true ↔ ∃ id, a.get id < b.get id := by
  rw [Bool.or_eq_true, List.any_eq_true, List.any_eq_true]
  simp only [decide_eq_true_eq, Bool.and_eq_true, Option.isNone_iff_eq_none, AList.lookup_eq_none]
  rw [exists_entry_iff (p := fun id value => value < b.get id),
    exists_entry_iff (p := fun id value => id ∉ a.clocks ∧ 0 < value)]
  constructor
  · rintro (⟨id, -, h⟩ | ⟨id, -, hnot, h⟩)
    · exact ⟨id, h⟩
    · exact ⟨id, get_of_notMem hnot ▸ h⟩
  · rintro ⟨id, h⟩
    by_cases hmem : id ∈ a.clocks
    · exact .inl ⟨id, hmem, h⟩
    · have hpos := Nat.zero_lt_of_lt h
      exact .inr ⟨id, mem_of_get_pos hpos, hmem, hpos⟩

theorem happensBefore_iff : a.happensBefore b = true ↔ a.get < b.get := by
  rw [happensBefore, Bool.and_eq_true, all_entries_iff, any_entries_iff, Pi.lt_def]

theorem get_foldl {es : List (Sigma fun _ : NodeId => Nat)} (hnodup : es.NodupKeys) (c : VectorClock) (id : NodeId) :
    (es.foldl (fun c e => (⟨c.clocks.insert e.1 (max (c.get e.1) e.2)⟩ : VectorClock)) c).get id =
      max (c.get id) ((es.dlookup id).getD 0) := by
  -- a node has one entry, so the maximum is taken once
  induction es generalizing c with
  | nil => simp
  | cons e es ih =>
    obtain ⟨key, value⟩ := e
    obtain ⟨hnot, hnodup⟩ := List.nodupKeys_cons.mp hnodup
    rw [List.foldl_cons, ih hnodup, get_insert]
    by_cases hkey : id = key
    · subst hkey
      rw [if_pos rfl, List.dlookup_cons_eq, List.dlookup_eq_none.mpr hnot]
      simp
    · rw [if_neg hkey, List.dlookup_cons_ne _ _ hkey]

theorem get_merge (a b : VectorClock) : (a.merge b).get = a.get ⊔ b.get :=
  funext fun id => get_foldl b.clocks.nodupKeys a id

/-! ## Equality -/

theorem sameEntries_iff : a.sameEntries b = true ↔ ∀ id, a.clocks.lookup id = b.clocks.lookup id := by
  rw [sameEntries, List.all_eq_true]
  simp only [decide_eq_true_eq, List.mem_append]
  refine ⟨fun h id => ?_, fun h id _ => h id⟩
  by_cases hmem : id ∈ a.clocks.keys ∨ id ∈ b.clocks.keys
  · exact h id hmem
  · obtain ⟨ha, hb⟩ := not_or.mp hmem
    rw [AList.lookup_eq_none.mpr ha, AList.lookup_eq_none.mpr hb]

/-- Clocks with the same values store the same nodes. -/
def StoredAlike (a b : VectorClock) : Prop :=
  (∀ id, a.get id = b.get id) → ∀ id, id ∈ a.clocks ↔ id ∈ b.clocks

theorem StoredAlike.sameEntries_iff_get (h : StoredAlike a b) : a.sameEntries b = true ↔ a.get = b.get := by
  rw [sameEntries_iff]
  constructor
  · intro heq
    funext id
    rw [get, get, heq]
  · intro heq id
    have hmem := h (congrFun heq) id
    by_cases ha : id ∈ a.clocks
    · rw [lookup_eq_some_get ha, lookup_eq_some_get (hmem.mp ha), heq]
    · rw [AList.lookup_eq_none.mpr ha, AList.lookup_eq_none.mpr fun hb => ha (hmem.mpr hb)]

/-- What `compare` has to return for the values of the two clocks. -/
structure OrderedBy (a b : VectorClock) : Prop where
  equal : a.compare b = .equal ↔ ∀ id, a.get id = b.get id
  before : a.compare b = .before ↔ (∀ id, a.get id ≤ b.get id) ∧ ∃ id, a.get id < b.get id
  after : a.compare b = .after ↔ (∀ id, b.get id ≤ a.get id) ∧ ∃ id, b.get id < a.get id
  concurrent : a.compare b = .concurrent ↔ (∃ id, a.get id < b.get id) ∧ ∃ id, b.get id < a.get id

theorem StoredAlike.compare_cases (h : StoredAlike a b) :
    (a.compare b = .equal ∧ a.get = b.get) ∨ (a.compare b = .before ∧ a.get < b.get) ∨
      (a.compare b = .after ∧ b.get < a.get) ∨ (a.compare b = .concurrent ∧ ¬ a.get ≤ b.get ∧ ¬ b.get ≤ a.get) := by
  have hafter : a.happensAfter b = true ↔ b.get < a.get := happensBefore_iff
  unfold compare
  split
  · rename_i hequal
    exact .inl ⟨rfl, h.sameEntries_iff_get.mp hequal⟩
  · rename_i hequal
    have hne : a.get ≠ b.get := fun heq => hequal (h.sameEntries_iff_get.mpr heq)
    split
    · rename_i hbefore
      exact .inr (.inl ⟨rfl, happensBefore_iff.mp hbefore⟩)
    · rename_i hbefore
      split
      · rename_i hgt
        exact .inr (.inr (.inl ⟨rfl, hafter.mp hgt⟩))
      · rename_i hgt
        exact .inr (.inr (.inr ⟨rfl, fun hle => hbefore (happensBefore_iff.mpr (lt_of_le_of_ne hle hne)),
          fun hle => hgt (hafter.mpr (lt_of_le_of_ne hle hne.symm))⟩))

theorem StoredAlike.orderedBy (h : StoredAlike a b) : OrderedBy a b := by
  have hlt : ((∀ id, a.get id ≤ b.get id) ∧ ∃ id, a.get id < b.get id) ↔ a.get < b.get := Pi.lt_def.symm
  have hgt : ((∀ id, b.get id ≤ a.get id) ∧ ∃ id, b.get id < a.get id) ↔ b.get < a.get := Pi.lt_def.symm
  have hnot : ((∃ id, a.get id < b.get id) ∧ ∃ id, b.get id < a.get id) ↔ ¬ b.get ≤ a.get ∧ ¬ a.get ≤ b.get := by
    simp only [Pi.le_def, not_forall, not_le]
  rcases h.compare_cases with ⟨hcompare, heq⟩ | ⟨hcompare, hless⟩ | ⟨hcompare, hless⟩ | ⟨hcompare, hle, hge⟩
  · constructor <;> simp [hcompare, heq]
  · constructor <;> simp [hcompare, hlt, hgt, hnot, ← funext_iff, hless, hless.ne, hless.not_gt, hless.le]
  · constructor <;> simp [hcompare, hlt, hgt, hnot, ← funext_iff, hless, hless.ne', hless.not_gt, hless.le]
  · constructor <;> simp [hcompare, hlt, hgt, hnot, ← funext_iff, hle, hge, mt le_of_lt hle, mt le_of_lt hge,
      mt le_of_eq hle]

theorem OrderedBy.storedAlike (h : OrderedBy a b) : StoredAlike a b := by
  intro heq id
  have hcompare := h.equal.mpr heq
  have hsame : a.sameEntries b = true := by
    by_contra hnot
    rw [compare, if_neg hnot] at hcompare
    split_ifs at hcompare
  rw [← AList.lookup_isSome, ← AList.lookup_isSome, sameEntries_iff.mp hsame]

end VectorClock

/-! ## Clocks that can be built -/

open VectorClock

inductive Build
  | new
  | fromNode (id : NodeId) (value : Nat)
  | increment (build : Build) (id : NodeId)
  | merge (build other : Build)

namespace Build

def clock : Build → VectorClock
  | new => .new
  | fromNode id value => .fromNode id value
  | increment build id => build.clock.increment id
  | merge build other => build.clock.merge other.clock

end Build

/-- The clocks are ordered by their values and merged to the least clock above both. `compare` follows the order unless the
clocks have the same values and a node is stored, with `0`, by one of them only. -/
theorem clocks_order_causality (x y : Build) :
    (x.clock.happensBefore y.clock = true ↔
      (∀ id, x.clock.get id ≤ y.clock.get id) ∧ ∃ id, x.clock.get id < y.clock.get id) ∧
    IsLUB {x.clock.get, y.clock.get} (x.clock.merge y.clock).get ∧
    (OrderedBy x.clock y.clock ↔ StoredAlike x.clock y.clock) := by
  refine ⟨?_, ?_, OrderedBy.storedAlike, StoredAlike.orderedBy⟩
  · rw [happensBefore_iff, Pi.lt_def, Pi.le_def]
  · rw [get_merge]
    exact isLUB_pair

/-- A node that only one of the clocks stores is compared by its value. -/
theorem clocks_order_causality_two_nodes :
    OrderedBy (Build.fromNode (.fromBytes 1) 2).clock ((Build.fromNode (.fromBytes 2) 1).increment (.fromBytes 1)).clock :=
  (clocks_order_causality _ _).2.2.mpr fun heq => absurd (heq (.fromBytes 2)) (by decide +kernel)

/-- The empty clock and one that stores a `0` have the same values, and are called concurrent. -/
theorem stored_zero_concurrent :
    (∀ id, Build.new.clock.get id = (Build.fromNode (.fromBytes 1) 0).clock.get id) ∧
      Build.new.clock.compare (Build.fromNode (.fromBytes 1) 0).clock = .concurrent := by
  refine ⟨fun id => ?_, by decide +kernel⟩
  exact (get_fromNode (.fromBytes 1) id 0).trans (ite_self 0) |>.symm

end SovereignNetwork.Consistency
