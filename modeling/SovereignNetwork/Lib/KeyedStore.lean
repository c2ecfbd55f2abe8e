import Mathlib.Data.List.AList

/-!
# Keyed stores and batches of writes

A store maps keys to values of a type that depends on the key. A batch is a set of writes that a store has not
taken yet: the last write of each key, where `none` removes the key. A store of several trees takes a batch tree by
tree.
-/

namespace SovereignNetwork.Lib

variable {K T : Type} {V : K → Type}

/-- The writes that wait for a commit. -/
abbrev Batch (V : K → Type) := AList fun k => Option (V k)

section

variable [DecidableEq K]

/-- Writes `v` under `k`, or removes `k`. -/
def setKey (m : AList V) (k : K) (v : Option (V k)) : AList V :=
  match v with
  | some v => m.insert k v
  | none => m.erase k

theorem lookup_setKey_self (m : AList V) (k : K) (v : Option (V k)) : (setKey m k v).lookup k = v := by
  cases v with
  | some v => exact AList.lookup_insert m
  | none => exact AList.lookup_erase k m

theorem lookup_setKey_of_ne {m : AList V} {k k' : K} (h : k' ≠ k) (v : Option (V k)) :
    (setKey m k v).lookup k' = m.lookup k' := by
  cases v with
  | some v => exact AList.lookup_insert_ne h
  | none => exact AList.lookup_erase_ne h

/-- The value that a read of the latest write of `k` returns. -/
def latest (s : AList V) (b : Batch V) (k : K) : Option (V k) := (b.lookup k).getD (s.lookup k)

theorem latest_empty (s : AList V) (k : K) : latest s ∅ k = s.lookup k := rfl

theorem latest_insert_self (s : AList V) (b : Batch V) (k : K) (v : Option (V k)) : latest s (b.insert k v) k = v := by
  simp [latest]

theorem latest_insert_of_ne {s : AList V} {b : Batch V} {k k' : K} (h : k' ≠ k) (v : Option (V k)) :
    latest s (b.insert k v) k' = latest s b k' := by
  rw [latest, latest, AList.lookup_insert_ne h]

theorem lookup_setKey_eq_latest {m s : AList V} {b : Batch V} (h : ∀ k, m.lookup k = latest s b k) (k : K)
    (v : Option (V k)) (k' : K) : (setKey m k v).lookup k' = latest s (b.insert k v) k' := by
  by_cases hk : k' = k
  · subst hk
    rw [lookup_setKey_self, latest_insert_self]
  · rw [lookup_setKey_of_ne hk, latest_insert_of_ne hk, h]

/-- The store after all writes of the batch. -/
def applyBatch (s : AList V) (b : Batch V) : AList V := b.entries.foldr (fun e m => setKey m e.1 e.2) s

theorem lookup_applyBatch (s : AList V) (b : Batch V) (k : K) : (applyBatch s b).lookup k = latest s b k := by
  obtain ⟨es, hes⟩ := b
  simp only [applyBatch, latest, AList.lookup]
  induction es with
  | nil => rfl
  | cons e es ih =>
    obtain ⟨k', v⟩ := e
    rw [List.foldr_cons]
    by_cases h : k = k'
    · subst h
      rw [List.dlookup_cons_eq, Option.getD_some]
      exact lookup_setKey_self _ _ _
    · rw [List.dlookup_cons_ne _ _ h]
      exact (lookup_setKey_of_ne h v).trans (ih (List.nodupKeys_cons.mp hes).2)

/-- The writes of the keys that satisfy `p`. -/
def Batch.restrict (p : K → Bool) (b : Batch V) : Batch V :=
  ⟨b.entries.filter fun e => p e.1, List.NodupKeys.sublist List.filter_sublist b.nodupKeys⟩

theorem Batch.lookup_restrict (p : K → Bool) (b : Batch V) (k : K) :
    (b.restrict p).lookup k = if p k then b.lookup k else none := by
  obtain ⟨es, hes⟩ := b
  simp only [Batch.restrict, AList.lookup]
  clear hes
  induction es with
  | nil => simp
  | cons e es ih =>
    obtain ⟨k', v⟩ := e
    by_cases h : k = k'
    · subst h
      by_cases hp : p k
      · simp [hp, List.dlookup_cons_eq]
      · rw [List.filter_cons_of_neg (by simpa using hp), ih]
        simp [hp]
    · rw [List.dlookup_cons_ne _ _ h, ← ih]
      by_cases hp : p k'
      · rw [List.filter_cons_of_pos (by simpa using hp), List.dlookup_cons_ne _ _ h]
      · rw [List.filter_cons_of_neg (by simpa using hp)]

/-! ## Commit, tree by tree -/

variable [DecidableEq T]

/-- Gives each tree of `order` its part of the batch. A key without a tree is not stored. -/
def commitTrees (treeOf : K → Option T) (order : List T) (s : AList V) (b : Batch V) : AList V :=
  order.foldl (fun m t => applyBatch m (b.restrict fun k => treeOf k = some t)) s

theorem lookup_commitTrees (treeOf : K → Option T) (order : List T) (s : AList V) (b : Batch V) (k : K) :
    (commitTrees treeOf order s b).lookup k = if ∃ t ∈ order, treeOf k = some t then latest s b k else s.lookup k := by
  induction order generalizing s with
  | nil => simp [commitTrees]
  | cons t order ih =>
    have hstep : commitTrees treeOf (t :: order) s b =
        commitTrees treeOf order (applyBatch s (b.restrict fun k => treeOf k = some t)) b := rfl
    rw [hstep, ih, latest, lookup_applyBatch, latest, Batch.lookup_restrict]
    by_cases ht : treeOf k = some t
    · cases hb : b.lookup k <;> simp [ht, hb, latest]
    · simp [ht, latest]

theorem lookup_commitTrees_take (treeOf : K → Option T) (order : List T) (n : Nat) (s : AList V) (b : Batch V) (k : K) :
    (commitTrees treeOf order (commitTrees treeOf (order.take n) s b) b).lookup k =
      (commitTrees treeOf order s b).lookup k := by
  rw [lookup_commitTrees, lookup_commitTrees treeOf order]
  split
  · -- Whether or not its tree was written already, the key ends with the latest value.
    rw [latest, lookup_commitTrees, latest]
    split
    · cases b.lookup k <;> rfl
    · rfl
  · next hnone =>
    rw [lookup_commitTrees, if_neg]
    rintro ⟨t, ht, hk⟩
    exact hnone ⟨t, List.mem_of_mem_take ht, hk⟩

end

end SovereignNetwork.Lib
