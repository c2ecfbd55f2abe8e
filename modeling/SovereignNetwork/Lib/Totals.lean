import Mathlib.Algebra.BigOperators.Group.Finset.Basic
import Mathlib.Algebra.Order.BigOperators.Group.Finset
import Mathlib.Algebra.Ring.Nat
import SovereignNetwork.Lib.KeyedStore

/-!
# Sums over a keyed store

Each entry of a store has a weight.
-/

namespace SovereignNetwork.Lib

variable {K : Type} {V : K → Type} {w : (k : K) → V k → Nat}

/-- The weight of what is stored under a key. -/
def weight (w : (k : K) → V k → Nat) (k : K) (v : Option (V k)) : Nat := v.elim 0 (w k)

@[simp] theorem weight_none (k : K) : weight w k none = 0 := rfl

@[simp] theorem weight_some (k : K) (v : V k) : weight w k (some v) = w k v := rfl

theorem weight_eq_zero {k : K} (hw : ∀ v, w k v = 0) (v : Option (V k)) : weight w k v = 0 := by
  cases v with
  | none => rfl
  | some v => exact hw v

/-- The weights of all entries. -/
def total (w : (k : K) → V k → Nat) (m : AList V) : Nat := (m.entries.map fun e => w e.1 e.2).sum

variable [DecidableEq K]

theorem total_eq_sum {m : AList V} {keys : Finset K} (h : ∀ k ∈ m, k ∈ keys) :
    total w m = ∑ k ∈ keys, weight w k (m.lookup k) := by
  obtain ⟨es, hes⟩ := m
  induction es generalizing keys with
  | nil => simp [total, AList.lookup]
  | cons e es ih =>
    obtain ⟨k, v⟩ := e
    obtain ⟨hk, hes'⟩ := List.nodupKeys_cons.mp hes
    have hmem : k ∈ keys := h k (by simp [AList.mem_keys, AList.keys])
    have hrest : ∀ k' ∈ (⟨es, hes'⟩ : AList V), k' ∈ keys.erase k := by
      intro k' hk'
      refine Finset.mem_erase.mpr ⟨?_, h k' ?_⟩
      · rintro rfl
        exact hk hk'
      · exact List.mem_cons_of_mem _ hk'
    have hhead : (⟨⟨k, v⟩ :: es, hes⟩ : AList V).lookup k = some v := List.dlookup_cons_eq _ _ _
    have htail : ∀ k' ∈ keys.erase k,
        weight w k' ((⟨⟨k, v⟩ :: es, hes⟩ : AList V).lookup k') = weight w k' ((⟨es, hes'⟩ : AList V).lookup k') := by
      intro k' hk'
      exact congrArg _ (List.dlookup_cons_ne _ _ (Finset.ne_of_mem_erase hk'))
    rw [← Finset.add_sum_erase _ _ hmem, hhead, Finset.sum_congr rfl htail, ← ih hes' hrest]
    simp [total]

theorem total_congr {m m' : AList V} (h : ∀ k, weight w k (m.lookup k) = weight w k (m'.lookup k)) :
    total w m = total w m' := by
  rw [total_eq_sum (fun k hk => Finset.mem_union_left m'.keys.toFinset (List.mem_toFinset.mpr hk)),
    total_eq_sum (fun k hk => Finset.mem_union_right m.keys.toFinset (List.mem_toFinset.mpr hk))]
  exact Finset.sum_congr rfl fun k _ => h k

theorem total_update {w' : (k : K) → V k → Nat} {m m' : AList V} {k : K}
    (h : ∀ k' ≠ k, weight w' k' (m'.lookup k') = weight w k' (m.lookup k')) :
    total w' m' + weight w k (m.lookup k) = total w m + weight w' k (m'.lookup k) := by
  let keys := insert k (m.keys.toFinset ∪ m'.keys.toFinset)
  have hk : k ∈ keys := Finset.mem_insert_self _ _
  have hm : ∀ k' ∈ m, k' ∈ keys := fun k' hk' =>
    Finset.mem_insert_of_mem (Finset.mem_union_left _ (List.mem_toFinset.mpr hk'))
  have hm' : ∀ k' ∈ m', k' ∈ keys := fun k' hk' =>
    Finset.mem_insert_of_mem (Finset.mem_union_right _ (List.mem_toFinset.mpr hk'))
  have hrest : ∑ k' ∈ keys.erase k, weight w' k' (m'.lookup k') = ∑ k' ∈ keys.erase k, weight w k' (m.lookup k') :=
    Finset.sum_congr rfl fun k' hk' => h k' (Finset.ne_of_mem_erase hk')
  rw [total_eq_sum hm, total_eq_sum hm', ← Finset.add_sum_erase _ _ hk, ← Finset.add_sum_erase keys _ hk, hrest]
  omega

theorem total_insert (m : AList V) (k : K) (v : V k) :
    total w (m.insert k v) + weight w k (m.lookup k) = total w m + w k v := by
  have hrest : ∀ k' ≠ k, weight w k' ((m.insert k v).lookup k') = weight w k' (m.lookup k') := fun k' hk' => by
    rw [AList.lookup_insert_ne hk']
  have h := total_update hrest
  rwa [AList.lookup_insert, weight_some] at h

theorem total_erase (m : AList V) (k : K) : total w (m.erase k) + weight w k (m.lookup k) = total w m := by
  have hrest : ∀ k' ≠ k, weight w k' ((m.erase k).lookup k') = weight w k' (m.lookup k') := fun k' hk' => by
    rw [AList.lookup_erase_ne hk']
  have h := total_update hrest
  rwa [AList.lookup_erase, weight_none] at h

theorem weight_le_total (m : AList V) (k : K) : weight w k (m.lookup k) ≤ total w m := by
  rw [total_eq_sum (fun k' hk' => Finset.mem_insert_of_mem (b := k) (List.mem_toFinset.mpr hk'))]
  exact Finset.single_le_sum (f := fun k => weight w k (m.lookup k)) (fun _ _ => Nat.zero_le _)
    (Finset.mem_insert_self _ _)

/-- The total once the batch is applied. -/
def totalAfter (w : (k : K) → V k → Nat) (s : AList V) (b : Batch V) : Nat := total w (applyBatch s b)

theorem totalAfter_empty (s : AList V) : totalAfter w s ∅ = total w s := rfl

theorem totalAfter_insert (s : AList V) (b : Batch V) (k : K) (v : Option (V k)) :
    totalAfter w s (b.insert k v) + weight w k (latest s b k) = totalAfter w s b + weight w k v := by
  have hrest : ∀ k' ≠ k, weight w k' ((applyBatch s (b.insert k v)).lookup k') =
      weight w k' ((applyBatch s b).lookup k') := by
    intro k' hk'
    rw [lookup_applyBatch, lookup_applyBatch, latest_insert_of_ne hk']
  have h := total_update hrest
  rwa [lookup_applyBatch, lookup_applyBatch, latest_insert_self] at h

theorem totalAfter_frame {s : AList V} {b b' : Batch V} (h : ∀ k, (∀ v, w k v = 0) ∨ b'.lookup k = b.lookup k) :
    totalAfter w s b' = totalAfter w s b := by
  refine total_congr fun k => ?_
  rw [lookup_applyBatch, lookup_applyBatch]
  rcases h k with hw | hb
  · rw [weight_eq_zero hw, weight_eq_zero hw]
  · rw [latest, latest, hb]

theorem totalAfter_congr {s : AList V} {b : Batch V} {m : AList V}
    (h : ∀ k, weight w k (m.lookup k) = weight w k (latest s b k)) : total w m = totalAfter w s b :=
  total_congr fun k => by rw [h, lookup_applyBatch]

end SovereignNetwork.Lib
