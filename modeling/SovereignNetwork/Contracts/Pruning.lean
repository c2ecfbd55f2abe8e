import Mathlib.Order.Bounds.Basic
import SovereignNetwork.Contracts.StateRoot
import SovereignNetwork.Lib.Run

/-!
# Pruning of versions

Old versions are deleted by their age alone, also where a key has no other version.
-/

namespace SovereignNetwork.Contracts

open Lib Execution

/-! ## Versions by key -/

/-- The eight bytes after `state:` as a number. -/
def extractHeightFromKey (versionedKey : List UInt8) : Option Nat :=
  if !(bytesOf "state:").isPrefixOf versionedKey then none
  else
    let rest := versionedKey.drop 6
    if 8 ≤ rest.length then some (fromBeBytes (rest.take 8)) else none

def keyOffset : Nat := 6 + 8 + 1

/-- The height of an entry that holds a version of the key. An entry of the empty key is passed over. -/
def heightOf (key : List UInt8) (entry : Entry) : Option Nat :=
  if entry.1.length ≤ keyOffset then none
  else if entry.1.drop keyOffset ≠ key then none
  else extractHeightFromKey entry.1

/-- The loop variables are the latest height and its value. -/
def later (key : List UInt8) (latest : Option (Nat × List UInt8)) (entry : Entry) : Option (Nat × List UInt8) :=
  match heightOf key entry with
  | none => latest
  | some height => if latest.all fun l => l.1 < height then some (height, entry.2) else latest

namespace Storage

def getLatest (s : Storage) (key : List UInt8) : Option (List UInt8) :=
  ((s.scanPrefix (bytesOf "state:")).foldl (later key) none).map Prod.snd

def isBelow (minHeight : Nat) (versionedKey : List UInt8) : Bool :=
  (extractHeightFromKey versionedKey).any (· < minHeight)

/-- The number of versions deleted, with the storage. -/
def pruneOldVersions (s : Storage) (maxVersionsToKeep currentHeight : Nat) : Nat × Storage :=
  let minHeight := currentHeight - maxVersionsToKeep
  (s.scanPrefix (bytesOf "state:")).foldl
    (fun acc entry => if isBelow minHeight entry.1 then (acc.1 + 1, acc.2.delete entry.1) else acc) (0, s)

end Storage

/-! ## Keys -/

section

variable {height height' : Nat} {key key' : List UInt8}

theorem foldl_asSlice {n x : Nat} (h : x < 2 ^ (8 * n)) {k : Nat} (hk : k ≤ n) :
    ((List.range k).map fun i => UInt8.ofNat (x >>> (8 * (n - 1 - i)))).foldl (fun a b => a * 256 + b.toNat) 0 =
      x >>> (8 * (n - k)) := by
  induction k with
  | zero => exact (Nat.shiftRight_eq_zero x (8 * n) h).symm
  | succ k ih =>
    have hsplit : 8 * (n - k) = 8 * (n - 1 - k) + 8 := by omega
    rw [List.range_succ, List.map_append, List.foldl_append, ih (Nat.le_of_succ_le hk), hsplit, Nat.shiftRight_add]
    simp only [List.map_cons, List.map_nil, List.foldl_cons, List.foldl_nil, UInt8.toNat_ofNat', Nat.reducePow,
      Nat.shiftRight_eq_div_pow _ 8]
    rw [Nat.div_add_mod', Nat.sub_sub, Nat.add_comm 1 k]

theorem fromBeBytes_toBeBytes (h : height < 2 ^ 64) : fromBeBytes (toBeBytes 8 height) = height := by
  have hbits : (BitVec.ofNat (8 * 8) height).toNat = height := Nat.mod_eq_of_lt h
  have hread := foldl_asSlice (BitVec.ofNat (8 * 8) height).isLt (Nat.le_refl 8)
  rw [hbits] at hread
  simp only [fromBeBytes, toBeBytes, Bytes.asSlice, hbits]
  exact hread

theorem length_state : (bytesOf "state:").length = 6 := by decide +kernel

theorem length_colon : (bytesOf ":").length = 1 := by decide +kernel

theorem startsWith_state (height : Nat) (key : List UInt8) : bytesOf "state:" <+: makeVersionedKey height key := by
  simp [makeVersionedKey, List.append_assoc]

theorem drop_makeVersionedKey (height : Nat) (key : List UInt8) : (makeVersionedKey height key).drop keyOffset = key := by
  have hlength : (bytesOf "state:" ++ toBeBytes 8 height ++ bytesOf ":").length = keyOffset := by
    simp [length_state, length_colon, keyOffset]
  rw [makeVersionedKey, ← hlength, List.drop_left]

theorem extractHeight_makeVersionedKey (h : height < 2 ^ 64) :
    extractHeightFromKey (makeVersionedKey height key) = some height := by
  have hstarts : (bytesOf "state:").isPrefixOf (makeVersionedKey height key) = true :=
    List.isPrefixOf_iff_prefix.mpr (startsWith_state height key)
  have hdrop : (makeVersionedKey height key).drop 6 = toBeBytes 8 height ++ (bytesOf ":" ++ key) := by
    rw [makeVersionedKey, List.append_assoc, List.append_assoc, ← length_state, List.drop_left]
  simp [extractHeightFromKey, hstarts, hdrop, fromBeBytes_toBeBytes h]

theorem makeVersionedKey_inj (h : height < 2 ^ 64) (h' : height' < 2 ^ 64)
    (heq : makeVersionedKey height key = makeVersionedKey height' key') : height = height' ∧ key = key' := by
  constructor
  · have hheight : extractHeightFromKey (makeVersionedKey height key) = some height := extractHeight_makeVersionedKey h
    rw [heq, extractHeight_makeVersionedKey h'] at hheight
    exact (Option.some.inj hheight).symm
  · rw [← drop_makeVersionedKey height key, heq, drop_makeVersionedKey]

theorem heightOf_makeVersionedKey (h : height < 2 ^ 64) (hkey : key ≠ []) (value : List UInt8) :
    heightOf key (makeVersionedKey height key, value) = some height := by
  have hlength : ¬ (makeVersionedKey height key).length ≤ keyOffset := by
    have hpos := List.length_pos_iff.mpr hkey
    simp only [makeVersionedKey, List.length_append, length_state, length_toBeBytes, length_colon, keyOffset]
    omega
  rw [heightOf, if_neg hlength, if_neg (by rw [drop_makeVersionedKey]; simp), extractHeight_makeVersionedKey h]

theorem key_of_heightOf {value : List UInt8} (hheight : heightOf key (makeVersionedKey height' key', value) = some height)
    (h' : height' < 2 ^ 64) : key' = key ∧ height' = height := by
  unfold heightOf at hheight
  split at hheight
  · cases hheight
  · split at hheight
    · cases hheight
    · next hkey =>
      rw [drop_makeVersionedKey, not_not] at hkey
      rw [extractHeight_makeVersionedKey h'] at hheight
      exact ⟨hkey, Option.some.inj hheight⟩

/-- What the loop keeps is an entry of the greatest height. -/
def IsLatest (key : List UInt8) (entries : List Entry) : Option (Nat × List UInt8) → Prop
  | none => ∀ e ∈ entries, heightOf key e = none
  | some (height, value) => (∃ e ∈ entries, heightOf key e = some height ∧ e.2 = value) ∧
      ∀ e ∈ entries, ∀ height' ∈ heightOf key e, height' ≤ height

theorem IsLatest.later {entries : List Entry} {latest : Option (Nat × List UInt8)} (h : IsLatest key entries latest)
    (e : Entry) : IsLatest key (entries ++ [e]) (later key latest e) := by
  cases hheight : heightOf key e with
  | none => cases latest <;> grind [IsLatest, Contracts.later]
  | some height =>
    cases latest with
    | none => grind [IsLatest, Contracts.later]
    | some best => grind [IsLatest, Contracts.later]

theorem isLatest_foldl (key : List UInt8) (entries : List Entry) :
    IsLatest key entries (entries.foldl (later key) none) := by
  induction entries using List.reverseRecOn with
  | nil => simp [IsLatest]
  | append_singleton entries e ih =>
    rw [List.foldl_append]
    exact ih.later e

end

/-! ## Pruning -/

theorem lookup_foldl_prune (minHeight : Nat) (key : List UInt8) (entries : List Entry) (acc : Nat × Storage) :
    (entries.foldl (fun acc entry => if Storage.isBelow minHeight entry.1 then (acc.1 + 1, acc.2.delete entry.1) else acc)
      acc).2.lookup key =
      if key ∈ entries.map Prod.fst ∧ Storage.isBelow minHeight key = true then none else acc.2.lookup key := by
  induction entries generalizing acc with
  | nil => simp
  | cons e entries ih =>
    rw [List.foldl_cons, ih]
    by_cases hkey : key = e.1
    · by_cases hbelow : Storage.isBelow minHeight key = true
      · simp [← hkey, hbelow, Storage.lookup_delete]
      · simp [← hkey, hbelow]
    · have hmem : key ∈ (e :: entries).map Prod.fst ↔ key ∈ entries.map Prod.fst := by simp [hkey]
      rw [if_congr (and_congr_left' hmem) rfl rfl]
      by_cases hbelow : Storage.isBelow minHeight e.1 = true
      · rw [if_pos hbelow, Storage.lookup_delete, if_neg hkey]
      · rw [if_neg hbelow]

theorem lookup_pruneOldVersions (s : Storage) (max currentHeight : Nat) (key : List UInt8) :
    (s.pruneOldVersions max currentHeight).2.lookup key =
      if Storage.isBelow (currentHeight - max) key then none else s.lookup key := by
  rw [Storage.pruneOldVersions, lookup_foldl_prune]
  by_cases hbelow : Storage.isBelow (currentHeight - max) key = true
  · rw [if_pos hbelow]
    split
    · rfl
    · next hmem =>
      by_contra hne
      obtain ⟨value, hvalue⟩ := Option.ne_none_iff_exists'.mp hne
      have hstarts : bytesOf "state:" <+: key := by
        by_contra hcon
        rw [← List.isPrefixOf_iff_prefix, Bool.not_eq_true] at hcon
        simp [Storage.isBelow, extractHeightFromKey, hcon] at hbelow
      exact hmem ⟨List.mem_map.mpr ⟨(key, value), Storage.mem_scanPrefix.mpr ⟨hvalue, hstarts⟩, rfl⟩, hbelow⟩
  · rw [if_neg hbelow, if_neg fun h => hbelow h.2]

/-! ## Runs -/

inductive VersionCall
  | store (version : Version)
  | prune (currentHeight : Nat)

/-- A storage with what was stored into it, the latest first, and the height of the last prune. -/
structure VersionRun where
  storage : Storage := ∅
  stored : List Version := []
  currentHeight : Nat := 0

namespace VersionRun

def step (max : Nat) (r : VersionRun) : VersionCall → VersionRun
  | .store version => { r with storage := r.storage.storeVersioned version, stored := version :: r.stored }
  | .prune height => { r with storage := (r.storage.pruneOldVersions max height).2, currentHeight := height }

/-- Heights are 64 bits wide, and those of the prunes do not decrease. -/
def InOrder (r : VersionRun) : VersionCall → Prop
  | .store version => version.blockHeight < 2 ^ 64
  | .prune height => r.currentHeight ≤ height

instance (r : VersionRun) : (call : VersionCall) → Decidable (r.InOrder call)
  | .store version => inferInstanceAs (Decidable (version.blockHeight < 2 ^ 64))
  | .prune height => inferInstanceAs (Decidable (r.currentHeight ≤ height))

def lastStored (r : VersionRun) (key : List UInt8) (height : Nat) : Option (List UInt8) :=
  (r.stored.find? fun v => v.key = key ∧ v.blockHeight = height).map (·.value)

def heights (r : VersionRun) (key : List UInt8) : Set Nat := {h | ∃ v ∈ r.stored, v.key = key ∧ v.blockHeight = h}

/-- The storage holds versions that were stored last, and all of them from the least height on. -/
structure Inv (max : Nat) (r : VersionRun) : Prop where
  bounded : ∀ v ∈ r.stored, v.blockHeight < 2 ^ 64
  sound : ∀ versionedKey value, r.storage.lookup versionedKey = some value → ∃ v ∈ r.stored,
    versionedKey = makeVersionedKey v.blockHeight v.key ∧ r.lastStored v.key v.blockHeight = some value
  complete : ∀ key height, r.currentHeight - max ≤ height → height < 2 ^ 64 →
    r.storage.lookup (makeVersionedKey height key) = r.lastStored key height

variable {max : Nat} {r : VersionRun}

theorem lastStored_store (r : VersionRun) (version : Version) (key : List UInt8) (height : Nat) :
    (r.step max (.store version)).lastStored key height =
      if version.key = key ∧ version.blockHeight = height then some version.value else r.lastStored key height := by
  unfold lastStored step
  by_cases h : version.key = key ∧ version.blockHeight = height
  · simp [h]
  · rw [if_neg h, List.find?_cons_of_neg (by simpa using h)]

theorem Inv.store (h : r.Inv max) {version : Version} (hversion : version.blockHeight < 2 ^ 64) :
    (r.step max (.store version)).Inv max where
  bounded := by
    intro v hv
    rcases List.mem_cons.mp hv with rfl | hv
    · exact hversion
    · exact h.bounded v hv
  sound := by
    intro versionedKey value hlookup
    rw [step, Storage.storeVersioned, Storage.lookup_set] at hlookup
    split at hlookup
    · next heq =>
      refine ⟨version, List.mem_cons_self, heq, ?_⟩
      rw [lastStored_store, if_pos ⟨rfl, rfl⟩]
      exact hlookup
    · next hne =>
      obtain ⟨v, hv, rfl, hlast⟩ := h.sound versionedKey value hlookup
      refine ⟨v, List.mem_cons_of_mem _ hv, rfl, ?_⟩
      rw [lastStored_store, if_neg]
      · exact hlast
      · rintro ⟨hkey, hheight⟩
        exact hne (by rw [← hkey, ← hheight])
  complete := by
    intro key height hmin hheight
    rw [lastStored_store, ← h.complete key height hmin hheight, step, Storage.storeVersioned, Storage.lookup_set]
    refine if_congr ⟨fun heq => ?_, fun heq => by rw [heq.1, heq.2]⟩ rfl rfl
    obtain ⟨hh, hk⟩ := makeVersionedKey_inj hheight hversion heq
    exact ⟨hk.symm, hh.symm⟩

theorem Inv.prune (h : r.Inv max) {height : Nat} (hheight : r.currentHeight ≤ height) :
    (r.step max (.prune height)).Inv max where
  bounded := h.bounded
  sound := by
    intro versionedKey value hlookup
    rw [step, lookup_pruneOldVersions] at hlookup
    split at hlookup
    · cases hlookup
    · exact h.sound versionedKey value hlookup
  complete := by
    intro key height' hmin hheight'
    replace hmin : height - max ≤ height' := hmin
    have hkept : Storage.isBelow (height - max) (makeVersionedKey height' key) = false := by
      simpa [Storage.isBelow, extractHeight_makeVersionedKey hheight'] using hmin
    rw [step, lookup_pruneOldVersions, hkept]
    exact h.complete key height' (Nat.le_trans (Nat.sub_le_sub_right hheight max) hmin) hheight'

theorem Inv.step (h : r.Inv max) {call : VersionCall} (hcall : r.InOrder call) : (r.step max call).Inv max := by
  cases call with
  | store version => exact h.store hcall
  | prune height => exact h.prune hcall

theorem Inv.empty (max : Nat) : ({} : VersionRun).Inv max where
  bounded := by simp
  sound := by rintro _ _ ⟨⟩
  complete := by intros; rfl

theorem Inv.getLatest (h : r.Inv max) {key : List UInt8} {height : Nat} (hkey : key ≠ [])
    (hgreatest : IsGreatest (r.heights key) height) (hmin : r.currentHeight - max ≤ height) :
    r.storage.getLatest key = r.lastStored key height := by
  obtain ⟨⟨v, hv, hvkey, hvheight⟩, hupper⟩ := hgreatest
  have hlt : height < 2 ^ 64 := hvheight ▸ h.bounded v hv
  have hsome : (r.lastStored key height).isSome := by
    simp only [lastStored, Option.isSome_map, List.find?_isSome]
    exact ⟨v, hv, by simp [hvkey, hvheight]⟩
  obtain ⟨value, hvalue⟩ := Option.isSome_iff_exists.mp hsome
  have hentry : (makeVersionedKey height key, value) ∈ r.storage.scanPrefix (bytesOf "state:") :=
    Storage.mem_scanPrefix.mpr ⟨(h.complete key height hmin hlt).trans hvalue, startsWith_state height key⟩
  unfold Storage.getLatest
  have hlatest := isLatest_foldl key (r.storage.scanPrefix (bytesOf "state:"))
  have hentryHeight := heightOf_makeVersionedKey hlt hkey value
  cases hfold : (r.storage.scanPrefix (bytesOf "state:")).foldl (later key) none with
  | none =>
    rw [hfold] at hlatest
    exact absurd ((hlatest _ hentry).symm.trans hentryHeight) nofun
  | some best =>
    rw [hfold] at hlatest
    obtain ⟨⟨⟨k, value'⟩, he, hheight', hvalue'⟩, hmax⟩ := hlatest
    obtain ⟨v', hv', rfl, hlast⟩ := h.sound k value' (Storage.mem_scanPrefix.mp he).1
    obtain ⟨hk, hh⟩ := key_of_heightOf hheight' (h.bounded v' hv')
    have hle : height ≤ best.1 := hmax _ hentry height hentryHeight
    have hge : best.1 ≤ height := hupper ⟨v', hv', hk, hh⟩
    rw [← Nat.le_antisymm hge hle, ← hh, ← hk, hlast]
    exact congrArg some hvalue'.symm

/-- No version within the limit of age is lost, so a key that is not empty keeps its latest version while that is within
the limit. -/
theorem prune_keeps_recent_versions (max : Nat) (calls : List VersionCall)
    (hcalls : Along (step max) InOrder {} calls) :
    let r := run (step max) {} calls
    (∀ key height, r.currentHeight - max ≤ height → height < 2 ^ 64 →
      r.storage.getVersioned key height = r.lastStored key height) ∧
    ∀ key height, key ≠ [] → IsGreatest (r.heights key) height → r.currentHeight - max ≤ height →
      r.storage.getLatest key = r.lastStored key height := by
  intro r
  have h : r.Inv max := hcalls.invariant (I := Inv max) (fun _ _ hcall h => h.step hcall) (Inv.empty max)
  exact ⟨h.complete, fun key height hkey hgreatest hmin => h.getLatest hkey hgreatest hmin⟩

def storedOnce (key : List UInt8) (currentHeight : Nat) : List VersionCall := [.store ⟨1, key, [7]⟩, .prune currentHeight]

/-- Versions at heights 1 and 3, of which the first is pruned. -/
def storedTwice : List VersionCall := [.store ⟨1, [5], [7]⟩, .store ⟨3, [5], [8]⟩, .prune 1002]

theorem stored_once_kept :
    (run (step 1000) {} (storedOnce [5] 1001)).storage.getVersioned [5] 1 = some [7] ∧
      (run (step 1000) {} storedTwice).storage.getVersioned [5] 1 = none ∧
      (run (step 1000) {} storedTwice).storage.getVersioned [5] 3 = some [8] ∧
      (run (step 1000) {} storedTwice).storage.getLatest [5] = some [8] := by
  have honce := prune_keeps_recent_versions 1000 (storedOnce [5] 1001) (by decide)
  have htwice := prune_keeps_recent_versions 1000 storedTwice (by decide)
  have hgreatest : IsGreatest ((run (step 1000) {} storedTwice).heights [5]) 3 := by
    refine ⟨⟨⟨3, [5], [8]⟩, List.mem_cons_self, rfl, rfl⟩, ?_⟩
    rintro height ⟨v, hv, -, rfl⟩
    exact (by decide : ∀ v ∈ (run (step 1000) {} storedTwice).stored, v.blockHeight ≤ 3) v hv
  exact ⟨honce.1 [5] 1 (by decide) (by decide), by decide +kernel, htwice.1 [5] 3 (by decide) (by decide),
    htwice.2 [5] 3 (by decide) hgreatest (by decide)⟩

/-- The only version of a key is pruned, and a version of the empty key is never found. -/
theorem stored_once_lost :
    (run (step 1000) {} (storedOnce [5] 1002)).storage.getLatest [5] = none ∧
      (run (step 1000) {} (storedOnce [] 1)).storage.getVersioned [] 1 = some [7] ∧
      (run (step 1000) {} (storedOnce [] 1)).storage.getLatest [] = none := by
  decide +kernel

end VersionRun

end SovereignNetwork.Contracts
