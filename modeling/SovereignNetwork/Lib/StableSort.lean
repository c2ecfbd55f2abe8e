import Mathlib.Data.List.Nodup
import Mathlib.Order.Lattice.Nat

/-!
# The places that a stable sort gives

In a list without repetitions that is sorted by a key, an element with a smaller key comes first, and of two elements
with the same key the one that came first before.
-/

namespace SovereignNetwork.Lib

variable {α : Type} [DecidableEq α] {l : List α} {a b : α}

theorem idxOf_lt_of_pair (hl : l.Nodup) (h : [a, b].Sublist l) : l.idxOf a < l.idxOf b := by
  obtain ⟨l₁, l₂, rfl, ha, hb⟩ := List.cons_sublist_iff.mp h
  have hnot : b ∉ l₁ := fun hb₁ => List.disjoint_of_nodup_append hl hb₁ (List.singleton_sublist.mp hb)
  rw [List.idxOf_append_of_mem ha, List.idxOf_append_of_notMem hnot]
  exact Nat.lt_add_right _ (List.idxOf_lt_length_of_mem ha)

theorem pair_of_idxOf_lt (hb : b ∈ l) (h : l.idxOf a < l.idxOf b) : [a, b].Sublist l := by
  have hlt := List.idxOf_lt_length_of_mem hb
  refine List.cons_sublist_iff.mpr ⟨l.take (l.idxOf b), l.drop (l.idxOf b), (List.take_append_drop _ _).symm, ?_, ?_⟩
  · exact (List.mem_take_iff_idxOf_lt (List.idxOf_lt_length_iff.mp (h.trans hlt))).mpr h
  · rw [List.drop_eq_getElem_cons hlt, List.getElem_idxOf hlt]
    exact List.singleton_sublist.mpr List.mem_cons_self

theorem idxOf_take_of_mem {n : Nat} (h : a ∈ l.take n) : (l.take n).idxOf a = l.idxOf a := by
  conv_rhs => rw [← List.take_append_drop n l]
  exact (List.idxOf_append_of_mem h).symm

section

variable {α : Type} (key : α → Nat)

def keyLe (a b : α) : Bool := key a ≤ key b

def sortByKey (l : List α) : List α := l.mergeSort (keyLe key)

theorem sortByKey_perm (l : List α) : (sortByKey key l).Perm l := List.mergeSort_perm _ _

theorem keyLe_trans (a b c : α) (hab : keyLe key a b) (hbc : keyLe key b c) : keyLe key a c :=
  decide_eq_true (Nat.le_trans (of_decide_eq_true hab) (of_decide_eq_true hbc))

theorem keyLe_total (a b : α) : keyLe key a b || keyLe key b a := by
  simpa [keyLe] using Nat.le_total (key a) (key b)

end

variable {key : α → Nat}

theorem key_le_of_idxOf_lt (hb : b ∈ l) (h : (sortByKey key l).idxOf a < (sortByKey key l).idxOf b) : key a ≤ key b := by
  have hsorted := List.pairwise_mergeSort (keyLe_trans key) (keyLe_total key) l
  have hpair := pair_of_idxOf_lt ((sortByKey_perm key l).mem_iff.mpr hb) h
  exact of_decide_eq_true (List.pairwise_iff_forall_sublist.mp hsorted hpair)

theorem idxOf_lt_of_key_lt (ha : a ∈ l) (h : key a < key b) : (sortByKey key l).idxOf a < (sortByKey key l).idxOf b := by
  by_contra hge
  rcases Nat.lt_or_eq_of_le (Nat.not_lt.mp hge) with hlt | heq
  · exact Nat.not_lt.mpr (key_le_of_idxOf_lt ha hlt) h
  · rw [(List.idxOf_inj ((sortByKey_perm key l).mem_iff.mpr ha)).mp heq.symm] at h
    exact Nat.lt_irrefl _ h

theorem idxOf_lt_of_before (hl : l.Nodup) (hb : b ∈ l) (h : l.idxOf a < l.idxOf b) (hle : key a ≤ key b) :
    (sortByKey key l).idxOf a < (sortByKey key l).idxOf b := by
  refine idxOf_lt_of_pair ((sortByKey_perm key l).nodup_iff.mpr hl) ?_
  exact List.pair_sublist_mergeSort (keyLe_trans key) (keyLe_total key) (decide_eq_true hle) (pair_of_idxOf_lt hb h)

end SovereignNetwork.Lib
