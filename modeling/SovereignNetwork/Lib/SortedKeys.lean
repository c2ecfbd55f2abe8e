import Mathlib.Data.List.Destutter
import Mathlib.Data.List.Sort

/-!
# One element for each key, in the order of the keys

The keys of the result depend only on the elements of the list.
-/

namespace SovereignNetwork.Lib

variable {α κ : Type} [LE κ] [DecidableLE κ] {key : α → κ} {l l' : List α}

section

variable [Std.IsLinearOrder κ]

theorem pairwise_insertionSort_key (key : α → κ) (l : List α) :
    (l.insertionSort fun a b => key a ≤ key b).Pairwise fun a b => key a ≤ key b := by
  have : Std.Total fun a b : α => key a ≤ key b := ⟨fun _ _ => Std.le_total⟩
  have : IsTrans α fun a b => key a ≤ key b := ⟨fun _ _ _ hab hbc => Std.le_trans hab hbc⟩
  exact List.pairwise_insertionSort _ l

theorem insertionSort_key_of_perm (h : l.Perm l') (hinj : ∀ a ∈ l, ∀ b ∈ l, key a = key b → a = b) :
    (l.insertionSort fun a b => key a ≤ key b) = l'.insertionSort fun a b => key a ≤ key b := by
  refine List.Perm.eq_of_pairwise ?_ (pairwise_insertionSort_key key l) (pairwise_insertionSort_key key l')
    ((List.perm_insertionSort _ l).trans (h.trans (List.perm_insertionSort _ l').symm))
  intro a b ha hb hab hba
  rw [List.mem_insertionSort] at ha hb
  exact hinj a ha b (h.mem_iff.mpr hb) (Std.le_antisymm hab hba)

end

/-! ## The first elements -/

section

variable {rank : α → Nat} {n : Nat} {x : α}

theorem countP_lt_of_mem_take (h : x ∈ (l.insertionSort fun a b => rank a ≤ rank b).take n) :
    l.countP (fun a => rank a < rank x) < n := by
  obtain ⟨before, after, htake⟩ := List.append_of_mem h
  have hsorted := pairwise_insertionSort_key rank l
  have hlength := List.length_take_le n (l.insertionSort fun a b => rank a ≤ rank b)
  rw [← (List.perm_insertionSort (fun a b => rank a ≤ rank b) l).countP_eq]
  rw [← List.take_append_drop n (l.insertionSort _), htake] at hsorted ⊢
  rw [htake, List.length_append, List.length_cons] at hlength
  rw [List.append_assoc, List.cons_append] at hsorted ⊢
  -- what comes after the element is not smaller
  have hafter : (after ++ (l.insertionSort fun a b => rank a ≤ rank b).drop n).countP (fun a => rank a < rank x) = 0 := by
    rw [List.countP_eq_zero]
    intro a ha
    have hle := List.rel_of_pairwise_cons (List.pairwise_append.mp hsorted).2.1 ha
    simpa using hle
  have hbefore : before.countP (fun a => rank a < rank x) ≤ before.length := List.countP_le_length
  rw [List.countP_append, List.countP_cons, hafter]
  simp only [Nat.lt_irrefl, decide_false]
  simp only [Bool.false_eq_true, if_false]
  omega

theorem le_of_notMem_take (hx : x ∈ l) (h : x ∉ (l.insertionSort fun a b => rank a ≤ rank b).take n) :
    ((l.insertionSort fun a b => rank a ≤ rank b).take n).length = n ∧
      ∀ y ∈ (l.insertionSort fun a b => rank a ≤ rank b).take n, rank y ≤ rank x := by
  have hsorted := pairwise_insertionSort_key rank l
  have hmem : x ∈ l.insertionSort fun a b => rank a ≤ rank b := (List.mem_insertionSort _).mpr hx
  rw [← List.take_append_drop n (l.insertionSort _), List.mem_append] at hmem
  have hdrop := hmem.resolve_left h
  rw [← List.take_append_drop n (l.insertionSort _), List.pairwise_append] at hsorted
  refine ⟨?_, fun y hy => hsorted.2.2 y hy x hdrop⟩
  have hpos := List.length_pos_of_mem hdrop
  rw [List.length_drop] at hpos
  rw [List.length_take]
  omega

theorem lt_of_notMem_take_cons (h : x ∉ ((x :: l).insertionSort fun a b => rank a ≤ rank b).take n) :
    (((x :: l).insertionSort fun a b => rank a ≤ rank b).take n).length = n ∧
      ∀ y ∈ ((x :: l).insertionSort fun a b => rank a ≤ rank b).take n, rank y < rank x := by
  rw [List.insertionSort_cons, List.orderedInsert_eq_take_drop] at h ⊢
  generalize hfirst : (l.insertionSort fun a b => rank a ≤ rank b).takeWhile (fun b => ¬rank x ≤ rank b) = first at h ⊢
  have hn : n ≤ first.length := by
    by_contra hlt
    refine h (List.mem_take_iff_getElem.mpr ⟨first.length, ?_, ?_⟩)
    · simp only [List.length_append, List.length_cons]
      omega
    · simp
  rw [List.take_append_of_le_length hn]
  refine ⟨by rw [List.length_take]; omega, fun y hy => ?_⟩
  have hall := List.all_eq_true.mp List.all_takeWhile y (hfirst ▸ List.mem_of_mem_take hy)
  simpa using hall

end

variable [DecidableEq κ]

/-- A stable sort by the key, after which the first of all neighbours with the same key is kept. -/
def sortDedupBy (key : α → κ) (l : List α) : List α :=
  (l.insertionSort fun a b => key a ≤ key b).destutter fun a b => key a ≠ key b

theorem map_sortDedupBy : (sortDedupBy key l).map key = sortDedupBy id (l.map key) := by
  have hsort := List.map_insertionSort (fun a b => key a ≤ key b) (fun a b : κ => id a ≤ id b) key l
    fun _ _ _ _ => Iff.rfl
  rw [sortDedupBy, sortDedupBy, ← hsort]
  exact List.map_destutter fun _ _ _ _ => Iff.rfl

variable [Std.IsLinearOrder κ]

theorem sortDedupBy_of_perm (h : l.Perm l') (hinj : ∀ a ∈ l, ∀ b ∈ l, key a = key b → a = b) :
    sortDedupBy key l = sortDedupBy key l' :=
  congrArg (List.destutter fun a b => key a ≠ key b) (insertionSort_key_of_perm h hinj)

theorem mem_sortDedupBy_cons (key : α → κ) (a : α) (l : List α) : a ∈ sortDedupBy key (a :: l) := by
  have hkept (first rest : List α) (b : α) (hb : key b ≠ key a) (hfirst : ∀ c ∈ first, key c ≠ key a) :
      a ∈ List.destutter' (fun a b => key a ≠ key b) b (first ++ a :: rest) := by
    induction first generalizing b with
    | nil =>
      rw [List.nil_append, List.destutter'_cons, if_pos hb]
      exact List.mem_cons_of_mem _ (List.mem_destutter' _ _ _)
    | cons c first ih =>
      obtain ⟨hc, hfirst⟩ := List.forall_mem_cons.mp hfirst
      rw [List.cons_append, List.destutter'_cons]
      split
      · exact List.mem_cons_of_mem _ (ih c hc hfirst)
      · exact ih b hb hfirst
  rw [sortDedupBy, List.insertionSort_cons, List.orderedInsert_eq_take_drop]
  have hsmaller : ∀ c ∈ (l.insertionSort fun a b => key a ≤ key b).takeWhile (fun b => ¬key a ≤ key b), key c ≠ key a := by
    intro c hc heq
    have hnot := List.all_eq_true.mp List.all_takeWhile c hc
    simp [heq] at hnot
  cases hfirst : (l.insertionSort fun a b => key a ≤ key b).takeWhile (fun b => ¬key a ≤ key b) with
  | nil => exact List.mem_destutter' _ _ _
  | cons b first =>
    rw [hfirst] at hsmaller
    obtain ⟨hb, hrest⟩ := List.forall_mem_cons.mp hsmaller
    exact hkept first _ b hb hrest

theorem eq_of_mem_sortDedupBy {a b : α} (ha : a ∈ sortDedupBy key l) (hb : b ∈ sortDedupBy key l) (heq : key a = key b) :
    a = b := by
  have hsorted : (sortDedupBy key l).Pairwise fun a b => key a ≤ key b :=
    (pairwise_insertionSort_key key l).sublist (List.destutter_sublist _ _)
  have hchain : (sortDedupBy key l).IsChain fun a b => key a ≠ key b := List.isChain_destutter _ _
  have : IsTrans α fun a b => key a ≤ key b ∧ key a ≠ key b :=
    ⟨fun _ _ _ hab hbc => ⟨Std.le_trans hab.1 hbc.1, fun h => hab.2 (Std.le_antisymm hab.1 (h ▸ hbc.1))⟩⟩
  have hstrict : (sortDedupBy key l).Pairwise fun a b => key a ≤ key b ∧ key a ≠ key b :=
    List.isChain_iff_pairwise.mp (List.isChain_iff_forall_rel_of_append_cons_cons.mpr fun _ _ _ _ happ =>
      ⟨List.isChain_iff_forall_rel_of_append_cons_cons.mp hsorted.isChain happ,
        List.isChain_iff_forall_rel_of_append_cons_cons.mp hchain happ⟩)
  exact List.inj_on_of_nodup_map (List.pairwise_map.mpr (hstrict.imp And.right)) ha hb heq

theorem map_sortDedupBy_of_perm (h : l.Perm l') : (sortDedupBy key l).map key = (sortDedupBy key l').map key := by
  rw [map_sortDedupBy, map_sortDedupBy]
  exact sortDedupBy_of_perm (h.map key) fun _ _ _ _ heq => heq

end SovereignNetwork.Lib
