import SovereignNetwork.Dht.NodeId
import SovereignNetwork.Lib.HashMap
import SovereignNetwork.Lib.Run
import SovereignNetwork.Lib.Table

/-!
# Observed-remove sets

The set keeps the tags of its elements and forgets the removed ones.
-/

namespace SovereignNetwork.Consistency

open Lib Dht

abbrev Tag := NodeId × Nat

structure ORSet (τ : Type) [DecidableEq τ] where
  elements : HashMap τ (List Tag)

namespace ORSet

variable {τ : Type} [DecidableEq τ] {s s' other : ORSet τ} {x y : τ} {t tag : Tag}

def new : ORSet τ := ⟨∅⟩

def tagsOf (s : ORSet τ) (x : τ) : List Tag := (s.elements.lookup x).getD []

def add (s : ORSet τ) (x : τ) (tag : Tag) : ORSet τ := ⟨s.elements.insert x (s.tagsOf x ++ [tag])⟩

/-- Also returns whether the element is gone. -/
def remove (s : ORSet τ) (x : τ) (observedTags : List Tag) : Bool × ORSet τ :=
  match s.elements.lookup x with
  | none => (false, s)
  | some tags =>
    let kept := tags.filter (· ∉ observedTags)
    if kept = [] then (true, ⟨s.elements.erase x⟩) else (false, ⟨s.elements.insert x kept⟩)

def contains (s : ORSet τ) (x : τ) : Bool := (s.elements.lookup x).isSome

/-- The tags that are not yet there are put at the end. -/
def pushMissing (ours tags : List Tag) : List Tag :=
  tags.foldl (fun ours tag => if tag ∈ ours then ours else ours ++ [tag]) ours

def mergeEntry (s : ORSet τ) (e : (_ : τ) × List Tag) : ORSet τ :=
  ⟨s.elements.insert e.1 (pushMissing (s.tagsOf e.1) e.2)⟩

def merge (s other : ORSet τ) : ORSet τ := other.elements.entries.foldl mergeEntry s

/-! ## Tags -/

theorem tagsOf_mk_insert (m : HashMap τ (List Tag)) (x y : τ) (tags : List Tag) :
    tagsOf ⟨m.insert x tags⟩ y = if y = x then tags else tagsOf ⟨m⟩ y := by
  rw [tagsOf, HashMap.lookup_insert_eq_ite]
  split <;> rfl

theorem mem_pushMissing {ours tags : List Tag} : t ∈ pushMissing ours tags ↔ t ∈ ours ∨ t ∈ tags := by
  induction tags generalizing ours with
  | nil => simp [pushMissing]
  | cons tag tags ih =>
    rw [pushMissing, List.foldl_cons, ← pushMissing, ih, List.mem_cons]
    split
    · next hmem =>
      constructor
      · exact fun h => h.imp_right .inr
      · rintro (h | rfl | h)
        · exact .inl h
        · exact .inl hmem
        · exact .inr h
    · rw [List.mem_append, List.mem_singleton, or_assoc]

theorem mem_tagsOf_add : t ∈ (s.add x tag).tagsOf y ↔ t ∈ s.tagsOf y ∨ y = x ∧ t = tag := by
  rw [add, tagsOf_mk_insert]
  split
  · next h =>
    subst h
    rw [List.mem_append, List.mem_singleton]
    simp
  · next h => exact ⟨.inl, fun hor => hor.resolve_right fun heq => h heq.1⟩

theorem mem_tagsOf_mergeEntry {e : (_ : τ) × List Tag} :
    t ∈ (s.mergeEntry e).tagsOf y ↔ t ∈ s.tagsOf y ∨ y = e.1 ∧ t ∈ e.2 := by
  rw [mergeEntry, tagsOf_mk_insert]
  split
  · next h =>
    subst h
    rw [mem_pushMissing]
    simp
  · next h => exact ⟨.inl, fun hor => hor.resolve_right fun heq => h heq.1⟩

theorem mem_tagsOf_foldl (entries : List ((_ : τ) × List Tag)) (s : ORSet τ) :
    t ∈ (entries.foldl mergeEntry s).tagsOf y ↔ t ∈ s.tagsOf y ∨ ∃ e ∈ entries, y = e.1 ∧ t ∈ e.2 := by
  induction entries generalizing s with
  | nil => simp
  | cons e entries ih =>
    rw [List.foldl_cons, ih, mem_tagsOf_mergeEntry, or_assoc, List.exists_mem_cons_iff]

theorem mem_tagsOf_iff : t ∈ s.tagsOf x ↔ ∃ tags, s.elements.lookup x = some tags ∧ t ∈ tags := by
  rw [tagsOf]
  cases s.elements.lookup x with
  | none => simp
  | some tags => simp

theorem mem_tagsOf_merge : t ∈ (s.merge other).tagsOf y ↔ t ∈ s.tagsOf y ∨ t ∈ other.tagsOf y := by
  rw [merge, mem_tagsOf_foldl, mem_tagsOf_iff (s := other)]
  refine or_congr_right ⟨?_, ?_⟩
  · rintro ⟨⟨_, tags⟩, he, rfl, ht⟩
    exact ⟨tags, HashMap.mem_entries_iff.mp he, ht⟩
  · rintro ⟨tags, hlookup, ht⟩
    exact ⟨⟨y, tags⟩, HashMap.mem_entries_iff.mpr hlookup, rfl, ht⟩

theorem lookup_remove_own (s : ORSet τ) (x y : τ) :
    (s.remove x (s.tagsOf x)).2.elements.lookup y = if y = x then none else s.elements.lookup y := by
  unfold remove
  split
  · next hnone =>
    split
    · next h => rw [h, hnone]
    · rfl
  · next tags hsome =>
    have hkept : tags.filter (· ∉ s.tagsOf x) = [] := by
      rw [List.filter_eq_nil_iff]
      intro t ht
      simp [tagsOf, hsome, ht]
    rw [if_pos hkept]
    exact HashMap.lookup_erase_eq_ite ..

theorem mem_tagsOf_remove : t ∈ (s.remove x (s.tagsOf x)).2.tagsOf y ↔ t ∈ s.tagsOf y ∧ y ≠ x := by
  rw [tagsOf, lookup_remove_own]
  split
  · next h => simp [h]
  · next h => exact ⟨fun ht => ⟨ht, h⟩, fun ht => ht.1⟩

/-! ## Elements -/

/-- No element is kept without a tag. -/
def Tagged (s : ORSet τ) : Prop := ∀ x, ∀ tags ∈ s.elements.lookup x, tags ≠ []

theorem Tagged.contains_iff (h : s.Tagged) : s.contains x ↔ ∃ t, t ∈ s.tagsOf x := by
  rw [contains]
  cases hlookup : s.elements.lookup x with
  | none => simp [tagsOf, hlookup]
  | some tags =>
    obtain ⟨t, ht⟩ := List.exists_mem_of_ne_nil tags (h x tags hlookup)
    exact ⟨fun _ => ⟨t, mem_tagsOf_iff.mpr ⟨tags, hlookup, ht⟩⟩, fun _ => rfl⟩

theorem Tagged.insert (h : s.Tagged) {tags : List Tag} (htags : tags ≠ []) : Tagged ⟨s.elements.insert x tags⟩ := by
  intro y tags' htags'
  obtain ⟨-, rfl⟩ | ⟨-, hold⟩ := HashMap.lookup_insert_cases htags'
  · exact htags
  · exact h y tags' hold

theorem Tagged.add (h : s.Tagged) (tag : Tag) : (s.add x tag).Tagged := h.insert (by simp)

theorem Tagged.remove (h : s.Tagged) : (s.remove x (s.tagsOf x)).2.Tagged := by
  intro y tags htags
  rw [lookup_remove_own] at htags
  split at htags
  · cases htags
  · exact h y tags htags

theorem Tagged.foldl {entries : List ((_ : τ) × List Tag)} (h : s.Tagged) (hentries : ∀ e ∈ entries, e.2 ≠ []) :
    (entries.foldl mergeEntry s).Tagged := by
  induction entries generalizing s with
  | nil => exact h
  | cons e entries ih =>
    refine ih (h.insert ?_) fun e he => hentries e (List.mem_cons_of_mem _ he)
    obtain ⟨t, ht⟩ := List.exists_mem_of_ne_nil e.2 (hentries e List.mem_cons_self)
    exact List.ne_nil_of_mem (mem_pushMissing.mpr (.inr ht))

theorem Tagged.merge (h : s.Tagged) (hother : other.Tagged) : (s.merge other).Tagged :=
  h.foldl fun e he => hother e.1 e.2 (HashMap.mem_entries_iff.mp he)

end ORSet

/-! ## Replicas -/

/-- The replicas and all their states up to now, with the tags that were added and those that a remove has observed. -/
structure SetReplicas (τ : Type) [DecidableEq τ] where
  replicas : List (ORSet τ)
  copies : List (ORSet τ)
  added : List (τ × Tag)
  observed : List (τ × Tag)

inductive SetEvent (τ : Type)
  | add (replica : Nat) (x : τ) (tag : Tag)
  | remove (replica : Nat) (x : τ)
  | merge (replica copy : Nat)

namespace SetReplicas

variable {τ : Type} [DecidableEq τ] {s : SetReplicas τ} {own other : ORSet τ}

def start (n : Nat) : SetReplicas τ := ⟨List.replicate n .new, List.replicate n .new, [], []⟩

def put (s : SetReplicas τ) (replica : Nat) (own : ORSet τ) : SetReplicas τ :=
  { s with replicas := s.replicas.set replica own, copies := s.copies ++ [own] }

def step (s : SetReplicas τ) : SetEvent τ → SetReplicas τ
  | .add replica x tag => (s.replicas[replica]?).elim s fun own =>
    { s.put replica (own.add x tag) with added := s.added ++ [(x, tag)] }
  | .remove replica x => (s.replicas[replica]?).elim s fun own =>
    { s.put replica (own.remove x (own.tagsOf x)).2 with observed := s.observed ++ (own.tagsOf x).map fun t => (x, t) }
  | .merge replica copy => (s.replicas[replica]?).elim s fun own => (s.copies[copy]?).elim s fun other =>
    s.put replica (own.merge other)

/-- The tags of a state were added. -/
structure Ok (added : List (τ × Tag)) (r : ORSet τ) : Prop where
  tagged : r.Tagged
  tags : ∀ x, ∀ t ∈ r.tagsOf x, (x, t) ∈ added

structure Inv (s : SetReplicas τ) : Prop where
  replicas : ∀ (i : Nat) r, s.replicas[i]? = some r → Ok s.added r
  copies : ∀ (i : Nat) r, s.copies[i]? = some r → Ok s.added r
  kept : ∀ a ∈ s.added, a ∈ s.observed ∨ ∃ (i : Nat) (r : ORSet τ), s.replicas[i]? = some r ∧ a.2 ∈ r.tagsOf a.1

theorem Ok.mono {added added' : List (τ × Tag)} (h : Ok added own) (hsub : added ⊆ added') : Ok added' own :=
  ⟨h.tagged, fun x t ht => hsub (h.tags x t ht)⟩

theorem Inv.put {replica : Nat} {new : ORSet τ} (h : Inv s) (added observed : List (τ × Tag))
    (hown : s.replicas[replica]? = some own) (hnew : Ok added new) (hadded : s.added ⊆ added)
    (hobserved : s.observed ⊆ observed)
    (hkept : ∀ x, ∀ t ∈ own.tagsOf x, (x, t) ∈ observed ∨ t ∈ new.tagsOf x)
    (hfresh : ∀ a ∈ added, a ∈ s.added ∨ a.2 ∈ new.tagsOf a.1) :
    Inv { s.put replica new with added := added, observed := observed } := by
  have hself : (s.replicas.set replica new)[replica]? = some new := getElem?_set_of_some hown
  refine ⟨?_, ?_, fun a ha => ?_⟩
  · exact forall_set (fun i r hr => (h.replicas i r hr).mono hadded) hown hnew
  · exact forall_concat (fun i r hr => (h.copies i r hr).mono hadded) hnew
  · rcases hfresh a ha with hold | hnew
    · rcases h.kept a hold with hobs | ⟨i, r, hr, ht⟩
      · exact .inl (hobserved hobs)
      · rcases set_cases new hown hr with ⟨rfl, rfl⟩ | hr
        · exact (hkept a.1 a.2 ht).imp_right fun ht => ⟨i, new, hself, ht⟩
        · exact .inr ⟨i, r, hr, ht⟩
    · exact .inr ⟨replica, new, hself, hnew⟩

theorem inv_add {replica : Nat} (h : Inv s) (hown : s.replicas[replica]? = some own) (x : τ) (tag : Tag) :
    Inv { s.put replica (own.add x tag) with added := s.added ++ [(x, tag)] } := by
  have hok := h.replicas replica own hown
  refine h.put (s.added ++ [(x, tag)]) s.observed hown ⟨hok.tagged.add tag, fun y t ht => ?_⟩ (List.subset_append_left _ _)
    (fun _ h => h) (fun y t ht => .inr (ORSet.mem_tagsOf_add.mpr (.inl ht))) fun a ha => ?_
  · rcases ORSet.mem_tagsOf_add.mp ht with ht | ⟨rfl, rfl⟩
    · exact List.mem_append_left _ (hok.tags y t ht)
    · exact List.mem_append_right _ (List.mem_singleton_self _)
  · rcases List.mem_append.mp ha with ha | ha
    · exact .inl ha
    · rw [List.mem_singleton.mp ha]
      exact .inr (ORSet.mem_tagsOf_add.mpr (.inr ⟨rfl, rfl⟩))

theorem inv_remove {replica : Nat} (h : Inv s) (hown : s.replicas[replica]? = some own) (x : τ) :
    Inv { s.put replica (own.remove x (own.tagsOf x)).2 with
      observed := s.observed ++ (own.tagsOf x).map fun t => (x, t) } := by
  have hok := h.replicas replica own hown
  refine h.put s.added (s.observed ++ (own.tagsOf x).map fun t => (x, t)) hown ⟨hok.tagged.remove, fun y t ht => ?_⟩
      (fun _ h => h)
    (List.subset_append_left _ _) (fun y t ht => ?_) fun a ha => .inl ha
  · exact hok.tags y t (ORSet.mem_tagsOf_remove.mp ht).1
  · by_cases hy : y = x
    · subst hy
      exact .inl (List.mem_append_right _ (List.mem_map_of_mem ht))
    · exact .inr (ORSet.mem_tagsOf_remove.mpr ⟨ht, hy⟩)

theorem inv_merge {replica copy : Nat} (h : Inv s) (hown : s.replicas[replica]? = some own)
    (hother : s.copies[copy]? = some other) : Inv (s.put replica (own.merge other)) := by
  have hok := h.replicas replica own hown
  have hok' := h.copies copy other hother
  refine h.put s.added s.observed hown ⟨hok.tagged.merge hok'.tagged, fun y t ht => ?_⟩
    (fun _ h => h) (fun _ h => h) (fun y t ht => .inr (ORSet.mem_tagsOf_merge.mpr (.inl ht))) fun a ha => .inl ha
  rcases ORSet.mem_tagsOf_merge.mp ht with ht | ht
  · exact hok.tags y t ht
  · exact hok'.tags y t ht

theorem inv_step (h : Inv s) (e : SetEvent τ) : Inv (s.step e) := by
  cases e with
  | add replica x tag =>
    rw [step]
    cases hown : s.replicas[replica]? with
    | none => exact h
    | some own => exact inv_add h hown x tag
  | remove replica x =>
    rw [step]
    cases hown : s.replicas[replica]? with
    | none => exact h
    | some own => exact inv_remove h hown x
  | merge replica copy =>
    rw [step]
    cases hown : s.replicas[replica]? with
    | none => exact h
    | some own =>
      cases hother : s.copies[copy]? with
      | none =>
        rw [Option.elim_some, Option.elim_none]
        exact h
      | some other => exact inv_merge h hown hother

theorem inv_start (n : Nat) : Inv (start n : SetReplicas τ) := by
  have hnew : ∀ (i : Nat) (r : ORSet τ), (List.replicate n .new)[i]? = some r → Ok [] r := by
    intro i r hr
    rw [(List.mem_replicate.mp (List.mem_of_getElem? hr)).2]
    exact ⟨fun _ _ h => (by cases h), fun _ _ h => (by cases h)⟩
  exact ⟨hnew, hnew, fun _ h => (by cases h)⟩

theorem inv_run (n : Nat) (events : List (SetEvent τ)) : Inv (run step (start n) events) :=
  (Along.of_forall (fun _ _ => trivial) (start n) events).invariant (fun _ e _ h => inv_step h e) (inv_start n)

/-! ## The final exchange -/

/-- The replica has received the final state of every other one, in some order. -/
def Received (s : SetReplicas τ) (replica : Nat) (result : ORSet τ) : Prop :=
  ∃ own ∈ s.replicas[replica]?, ∃ order : List (ORSet τ), (∀ r ∈ order, r ∈ s.replicas) ∧
    (∀ (i : Nat) r, s.replicas[i]? = some r → i ≠ replica → r ∈ order) ∧ result = order.foldl ORSet.merge own

theorem mem_tagsOf_merges {x : τ} {t : Tag} (order : List (ORSet τ)) (own : ORSet τ) :
    t ∈ (order.foldl ORSet.merge own).tagsOf x ↔ t ∈ own.tagsOf x ∨ ∃ r ∈ order, t ∈ r.tagsOf x := by
  induction order generalizing own with
  | nil => simp
  | cons r order ih => rw [List.foldl_cons, ih, ORSet.mem_tagsOf_merge, or_assoc, List.exists_mem_cons_iff]

theorem Received.mem_tagsOf_iff {replica : Nat} {result : ORSet τ} (h : s.Received replica result) {x : τ} {t : Tag} :
    t ∈ result.tagsOf x ↔ ∃ r ∈ s.replicas, t ∈ r.tagsOf x := by
  obtain ⟨own, hown, order, hsub, hall, rfl⟩ := h
  rw [mem_tagsOf_merges]
  constructor
  · rintro (ht | ⟨r, hr, ht⟩)
    · exact ⟨own, List.mem_of_getElem? hown, ht⟩
    · exact ⟨r, hsub r hr, ht⟩
  · rintro ⟨r, hr, ht⟩
    obtain ⟨i, hi⟩ := List.mem_iff_getElem?.mp hr
    by_cases heq : i = replica
    · subst heq
      obtain rfl := Option.some.inj (hi.symm.trans hown)
      exact .inl ht
    · exact .inr ⟨r, hall i r hi heq, ht⟩

theorem tagged_merges {order : List (ORSet τ)} {own : ORSet τ} (hown : own.Tagged) (horder : ∀ r ∈ order, r.Tagged) :
    (order.foldl ORSet.merge own).Tagged := by
  induction order generalizing own with
  | nil => exact hown
  | cons r order ih =>
    exact ih (hown.merge (horder r List.mem_cons_self)) fun r hr => horder r (List.mem_cons_of_mem _ hr)

/-- No replica still holds a tag that a remove has observed. -/
def NoneStale (s : SetReplicas τ) : Prop := ∀ r ∈ s.replicas, ∀ x, ∀ t ∈ r.tagsOf x, (x, t) ∉ s.observed

/-- After the exchange of the final states all replicas hold the same tags, and if no final state is stale, an element is
present exactly when it has an added tag that no remove has observed. -/
theorem sets_converge (n : Nat) (events : List (SetEvent τ)) :
    (∀ i j ri rj, (run step (start n) events).Received i ri → (run step (start n) events).Received j rj →
      ∀ x t, t ∈ ri.tagsOf x ↔ t ∈ rj.tagsOf x) ∧
    ((run step (start n) events).NoneStale → ∀ i r, (run step (start n) events).Received i r →
      ∀ x, r.contains x ↔
        ∃ t, (x, t) ∈ (run step (start n) events).added ∧ (x, t) ∉ (run step (start n) events).observed) := by
  have hinv : Inv (run step (start n) events : SetReplicas τ) := inv_run n events
  refine ⟨fun i j ri rj hi hj x t => hi.mem_tagsOf_iff.trans hj.mem_tagsOf_iff.symm, fun hstale i r hr x => ?_⟩
  have hok : ∀ r ∈ (run step (start n) events).replicas, Ok (run step (start n) events).added r := by
    intro r hr
    obtain ⟨j, hj⟩ := List.mem_iff_getElem?.mp hr
    exact hinv.replicas j r hj
  have htagged : r.Tagged := by
    obtain ⟨own, hown, order, hsub, -, rfl⟩ := hr
    exact tagged_merges (hok own (List.mem_of_getElem? hown)).tagged fun r hr => (hok r (hsub r hr)).tagged
  rw [htagged.contains_iff]
  constructor
  · rintro ⟨t, ht⟩
    obtain ⟨r', hr', ht'⟩ := hr.mem_tagsOf_iff.mp ht
    exact ⟨t, (hok r' hr').tags x t ht', hstale r' hr' x t ht'⟩
  · rintro ⟨t, hadded, hunobserved⟩
    obtain ⟨j, r', hj, ht⟩ := (hinv.kept (x, t) hadded).resolve_left hunobserved
    exact ⟨t, hr.mem_tagsOf_iff.mpr ⟨r', List.mem_of_getElem? hj, ht⟩⟩

/-! ## Two runs -/

def exchanged (s : SetReplicas τ) (replica : Nat) : Option (ORSet τ) :=
  s.replicas[replica]?.map fun own => s.replicas.foldl ORSet.merge own

theorem received_of_exchanged {replica : Nat} {p : ORSet τ → Bool} (h : (s.exchanged replica).any p) :
    ∃ r, s.Received replica r ∧ p r := by
  obtain ⟨r, hr, hp⟩ := (Option.any_eq_true _ _).mp h
  obtain ⟨own, hown, rfl⟩ := Option.map_eq_some_iff.mp hr
  exact ⟨_, ⟨own, hown, s.replicas, fun _ h => h, fun i r hr _ => List.mem_of_getElem? hr, rfl⟩, hp⟩

theorem noneStale_of_entries
    (h : ∀ r ∈ s.replicas, ∀ e ∈ r.elements.entries, ∀ t ∈ e.2, (e.1, t) ∉ s.observed) : s.NoneStale := by
  intro r hr x t ht
  obtain ⟨tags, hlookup, ht⟩ := ORSet.mem_tagsOf_iff.mp ht
  exact h r hr ⟨x, tags⟩ (HashMap.mem_entries_iff.mpr hlookup) t ht

def tagOf (n : Nat) : Tag := (.fromBytes (BitVec.ofNat 256 n), 1)

/-- A replica adds and removes an element that another one adds as well. -/
def removedAtOnce : List (SetEvent Nat) := [.add 0 7 (tagOf 0), .remove 0 7, .add 1 7 (tagOf 1)]

theorem sets_converge_removed_at_once :
    ∃ r, (run step (start 2) removedAtOnce).Received 0 r ∧
      (r.contains 7 ↔ ∃ t, (7, t) ∈ (run step (start 2) removedAtOnce).added ∧
        (7, t) ∉ (run step (start 2) removedAtOnce).observed) := by
  have hstale : (run step (start 2) removedAtOnce).NoneStale := noneStale_of_entries (by decide +kernel)
  have hexchanged : ((run step (start 2) removedAtOnce).exchanged 0).any fun r => r.contains 7 := by decide +kernel
  obtain ⟨r, hr, -⟩ := received_of_exchanged hexchanged
  exact ⟨r, hr, (sets_converge 2 removedAtOnce).2 hstale 0 r hr 7⟩

/-- A replica removes an element that it has got from another one. -/
def removedElsewhere : List (SetEvent Nat) := [.add 0 7 (tagOf 0), .merge 1 2, .remove 1 7]

/-- The element comes back with the final state of the other replica. -/
theorem removed_element_returns :
    (∃ r, (run step (start 2) removedElsewhere).Received 1 r ∧ r.contains 7) ∧
      ∀ a ∈ (run step (start 2) removedElsewhere).added, a ∈ (run step (start 2) removedElsewhere).observed :=
  ⟨received_of_exchanged (by decide +kernel), by decide +kernel⟩

end SetReplicas

end SovereignNetwork.Consistency
