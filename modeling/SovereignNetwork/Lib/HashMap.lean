import Mathlib.Data.List.AList

/-!
# Hash maps as association lists without repeated keys

Iteration runs over `entries`. The order is that of insertion, newest first.
-/

namespace SovereignNetwork.Lib

/-- A finite map. The list of entries carries the proof that no key repeats. -/
abbrev HashMap (K V : Type) := AList fun _ : K => V

namespace HashMap

variable {K V : Type}

def values (m : HashMap K V) : List V := m.entries.map Sigma.snd

/-- Rewrites every value in place, as a loop over `iter_mut` does. -/
def mapEntries (f : K → V → V) (m : HashMap K V) : HashMap K V :=
  ⟨m.entries.map fun e => ⟨e.1, f e.1 e.2⟩, by
    have := m.nodupKeys
    simpa [List.NodupKeys, List.keys, Function.comp_def] using this⟩

def mapValues (f : V → V) (m : HashMap K V) : HashMap K V := mapEntries (fun _ => f) m

/-- Drops the entries that do not meet `p`. -/
def retain (p : K → V → Bool) (m : HashMap K V) : HashMap K V :=
  ⟨m.entries.filter fun e => p e.1 e.2, m.nodupKeys.sublist List.filter_sublist⟩

theorem values_mapValues (f : V → V) (m : HashMap K V) : (mapValues f m).values = m.values.map f := by
  simp only [mapValues, mapEntries, values, List.map_map, Function.comp_def]

variable [DecidableEq K]

/-- Rewrites the value under `k`, if there is one (`get_mut`). -/
def modify (k : K) (f : V → V) (m : HashMap K V) : HashMap K V :=
  mapEntries (fun k' v => if k' = k then f v else v) m

theorem mem_entries_iff {m : HashMap K V} {k : K} {v : V} : ⟨k, v⟩ ∈ m.entries ↔ m.lookup k = some v :=
  AList.mem_lookup_iff.symm

theorem lookup_insert_eq_ite (m : HashMap K V) (k k' : K) (v : V) :
    AList.lookup k' (m.insert k v) = if k' = k then some v else m.lookup k' := by
  split
  · next h =>
    subst h
    exact AList.lookup_insert m
  · next h => exact AList.lookup_insert_ne h

theorem lookup_insert_cases {m : HashMap K V} {k k' : K} {v v' : V}
    (h : AList.lookup k' (m.insert k v) = some v') : k' = k ∧ v = v' ∨ k' ≠ k ∧ m.lookup k' = some v' := by
  rw [lookup_insert_eq_ite] at h
  split at h
  · next hk => exact .inl ⟨hk, Option.some.inj h⟩
  · next hk => exact .inr ⟨hk, h⟩

theorem lookup_erase_eq_ite (m : HashMap K V) (k k' : K) :
    AList.lookup k' (m.erase k) = if k' = k then none else m.lookup k' := by
  split
  · next h =>
    subst h
    exact AList.lookup_erase k' m
  · next h => exact AList.lookup_erase_ne h

theorem lookup_mapEntries (f : K → V → V) (m : HashMap K V) (k : K) :
    (mapEntries f m).lookup k = (m.lookup k).map (f k) := by
  obtain ⟨es, hes⟩ := m
  simp only [mapEntries, AList.lookup]
  clear hes
  induction es with
  | nil => rfl
  | cons e es ih =>
    obtain ⟨k', v⟩ := e
    by_cases h : k = k'
    · subst h
      simp [List.dlookup_cons_eq]
    · have h' : k ≠ k' := h
      rw [List.map_cons, List.dlookup_cons_ne _ _ h', List.dlookup_cons_ne _ _ h', ih]

@[simp] theorem lookup_mapValues (f : V → V) (m : HashMap K V) (k : K) :
    (mapValues f m).lookup k = (m.lookup k).map f :=
  lookup_mapEntries _ m k

@[simp] theorem lookup_retain (p : K → V → Bool) (m : HashMap K V) (k : K) :
    (retain p m).lookup k = (m.lookup k).filter (p k) := by
  ext v
  rw [← mem_entries_iff, Option.filter_eq_some_iff, ← mem_entries_iff]
  exact List.mem_filter

theorem lookup_modify (k k' : K) (f : V → V) (m : HashMap K V) :
    (modify k f m).lookup k' = if k' = k then (m.lookup k).map f else m.lookup k' := by
  rw [modify, lookup_mapEntries]
  by_cases hk : k' = k
  · subst hk
    simp
  · simp [hk]

end HashMap

end SovereignNetwork.Lib
