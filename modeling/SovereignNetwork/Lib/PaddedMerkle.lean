import Mathlib.Logic.Function.Iterate
import SovereignNetwork.Lib.Merkle

/-!
# Merkle trees with a padded last node

Each level hashes neighbouring nodes, an odd last node with a constant.
-/

namespace SovereignNetwork.Lib.PaddedMerkle

open Merkle (eq_of_map_eq)

variable {α : Type} {h : α → α → α} {pad : α} {P Q : α × α → Prop} {l l' : List α} {a b r x : α} {d k : Nat}

def pairs (pad : α) : List α → List (α × α)
  | [] => []
  | [a] => [(a, pad)]
  | a :: b :: rest => (a, b) :: pairs pad rest

def level (h : α → α → α) (pad : α) (l : List α) : List α := (pairs pad l).map fun p => h p.1 p.2

def reduce (h : α → α → α) (pad : α) : Nat → List α → List α
  | 0, l => l
  | n + 1, l => if l.length ≤ 1 then l else reduce h pad n (level h pad l)

def root (h : α → α → α) (pad : α) (l : List α) : α := (reduce h pad l.length l).headD pad

def hashed (h : α → α → α) (pad : α) : Nat → List α → List (α × α)
  | 0, _ => []
  | n + 1, l => if l.length ≤ 1 then [] else pairs pad l ++ hashed h pad n (level h pad l)

/-! ## Levels -/

theorem length_level (h : α → α → α) (pad : α) (l : List α) : (level h pad l).length = (l.length + 1) / 2 := by
  rw [level, List.length_map]
  fun_induction pairs pad l with
  | case1 => simp
  | case2 a => simp
  | case3 a b rest ih =>
    simp only [List.length_cons, ih]
    omega

theorem getElem?_pairs {i : Nat} (hi : (pairs pad l)[i]? = some (a, b)) :
    l[2 * i]? = some a ∧ (l[2 * i + 1]? = some b ∨ l.length = 2 * i + 1 ∧ b = pad) := by
  induction l using pairs.induct generalizing i with
  | case1 => simp [pairs] at hi
  | case2 c =>
    cases i with
    | zero =>
      simp only [pairs, List.getElem?_cons_zero, Option.some.injEq, Prod.mk.injEq] at hi
      obtain ⟨rfl, rfl⟩ := hi
      exact ⟨rfl, .inr ⟨rfl, rfl⟩⟩
    | succ i => simp [pairs] at hi
  | case3 c c' rest ih =>
    cases i with
    | zero =>
      simp only [pairs, List.getElem?_cons_zero, Option.some.injEq, Prod.mk.injEq] at hi
      obtain ⟨rfl, rfl⟩ := hi
      exact ⟨rfl, .inl rfl⟩
    | succ i =>
      rw [pairs, List.getElem?_cons_succ] at hi
      exact (ih hi).imp_right (Or.imp_right (And.imp_left (congrArg (· + 2))))

theorem getD_of_pairs {i : Nat} (hi : (pairs pad l)[i]? = some (a, b)) :
    l.getD (2 * i) pad = a ∧ l.getD (2 * i + 1) pad = b := by
  obtain ⟨hleft, hright⟩ := getElem?_pairs hi
  rw [List.getD_eq_getElem?_getD, List.getD_eq_getElem?_getD, hleft]
  rcases hright with hright | ⟨hlength, rfl⟩
  · rw [hright]
    exact ⟨rfl, rfl⟩
  · rw [List.getElem?_eq_none (Nat.le_of_eq hlength)]
    exact ⟨rfl, rfl⟩

theorem pairs_append_pad (hodd : l.length % 2 = 1) : pairs pad (l ++ [pad]) = pairs pad l := by
  induction l using pairs.induct with
  | case1 => simp at hodd
  | case2 a => rfl
  | case3 a b rest ih =>
    have hrest : rest.length % 2 = 1 := by
      simp only [List.length_cons] at hodd
      omega
    rw [List.cons_append, List.cons_append, pairs, pairs, ih hrest]

theorem level_append_pad (h : α → α → α) (hodd : l.length % 2 = 1) : level h pad (l ++ [pad]) = level h pad l := by
  rw [level, level, pairs_append_pad hodd]

theorem reduce_eq_of_le {n m : Nat} (hn : l.length ≤ n) (hm : l.length ≤ m) : reduce h pad n l = reduce h pad m l := by
  induction n generalizing l m with
  | zero =>
    obtain rfl := List.length_eq_zero_iff.mp (Nat.le_zero.mp hn)
    cases m <;> rfl
  | succ n ih =>
    cases m with
    | zero =>
      obtain rfl := List.length_eq_zero_iff.mp (Nat.le_zero.mp hm)
      rfl
    | succ m =>
      have hlevel := length_level h pad l
      rw [reduce, reduce]
      split
      · rfl
      · exact ih (by omega) (by omega)

theorem root_level (hone : 1 < l.length) : root h pad (level h pad l) = root h pad l := by
  have hlevel := length_level h pad l
  rw [root, root, reduce_eq_of_le (l := l) (m := l.length + 1) (by omega) (by omega), reduce, if_neg (by omega),
    reduce_eq_of_le (m := l.length) (Nat.le_refl _) (by omega)]

theorem root_append_pad (hodd : l.length % 2 = 1) (hone : 1 < l.length) : root h pad (l ++ [pad]) = root h pad l := by
  rw [← root_level (by rw [List.length_append]; omega), level_append_pad h hodd, root_level hone]

inductive Folds (h : α → α → α) (pad : α) (P : α × α → Prop) : Nat → List α → α → Prop
  | single (a : α) : Folds h pad P 0 [a] a
  | up {d : Nat} {l : List α} {r : α} (hone : 1 < l.length) (hpairs : ∀ p ∈ pairs pad l, P p)
      (hrest : Folds h pad P d (level h pad l) r) : Folds h pad P (d + 1) l r

theorem Folds.mono (hPQ : ∀ p, P p → Q p) (hf : Folds h pad P d l r) : Folds h pad Q d l r := by
  induction hf with
  | single a => exact .single a
  | up hone hpairs _ ih => exact .up hone (fun p hp => hPQ p (hpairs p hp)) ih

theorem Folds.eq_singleton (hf : Folds h pad P 0 l r) : l = [r] := by
  cases hf
  rfl

theorem Folds.ne_nil (hf : Folds h pad P d l r) : l ≠ [] := by
  cases hf with
  | single a => exact List.cons_ne_nil _ []
  | up hone _ _ => exact List.ne_nil_of_length_pos (by omega)

theorem Folds.iterate (hf : Folds h pad P (d + k) l r) : Folds h pad P d ((level h pad)^[k] l) r := by
  induction k generalizing l with
  | zero => exact hf
  | succ k ih =>
    cases hf with
    | up _ _ hrest => exact ih hrest

theorem Folds.exists_pair (hf : Folds h pad P (d + (k + 1)) l r) (hx : x ∈ (level h pad)^[k + 1] l) :
    ∃ p, P p ∧ h p.1 p.2 = x := by
  rw [← Nat.add_assoc, Nat.add_right_comm] at hf
  rw [Function.iterate_succ_apply'] at hx
  obtain ⟨p, hp, hnode⟩ := List.mem_map.mp hx
  cases hf.iterate with
  | up _ hpairs _ => exact ⟨p, hpairs p hp, hnode⟩

theorem Folds.eq_singleton_of_ne (hf : Folds h pad P d l r) (hr : ∀ p, P p → h p.1 p.2 ≠ r) : l = [r] := by
  induction hf with
  | single a => rfl
  | @up d l r _ hpairs _ ih =>
    have hmem : r ∈ level h pad l := ih hr ▸ List.mem_cons_self
    obtain ⟨p, hp, hnode⟩ := List.mem_map.mp hmem
    exact absurd hnode (hr p (hpairs p hp))

theorem folds_reduce {n : Nat} (hl : l ≠ []) (hn : l.length ≤ n) :
    ∃ d r, reduce h pad n l = [r] ∧ Folds h pad (· ∈ hashed h pad n l) d l r := by
  induction n generalizing l with
  | zero => exact absurd (List.length_eq_zero_iff.mp (Nat.le_zero.mp hn)) hl
  | succ n ih =>
    have hpos := List.length_pos_iff.mpr hl
    by_cases hone : l.length ≤ 1
    · obtain ⟨a, rfl⟩ := List.length_eq_one_iff.mp (Nat.le_antisymm hone hpos)
      exact ⟨0, a, by simp [reduce], .single a⟩
    · have hlength := length_level h pad l
      obtain ⟨d, r, hreduce, hf⟩ := ih (l := level h pad l) (List.length_pos_iff.mp (by omega)) (by omega)
      refine ⟨d + 1, r, by rw [reduce, if_neg hone, hreduce], ?_⟩
      simp only [hashed, if_neg hone, List.mem_append]
      exact .up (by omega) (fun p hp => .inl hp) (hf.mono fun p hp => .inr hp)

theorem folds_root (h : α → α → α) (pad : α) (hl : l ≠ []) :
    ∃ d, Folds h pad (· ∈ hashed h pad l.length l) d l (root h pad l) := by
  obtain ⟨d, r, hreduce, hf⟩ := folds_reduce (h := h) hl (Nat.le_refl _)
  exact ⟨d, by rwa [root, hreduce, List.headD_cons]⟩

/-! ## Walks -/

/-- Each step says whether the node is the right one of its pair, and gives the other one. -/
def walk (h : α → α → α) (x : α) (steps : List (Bool × α)) : α :=
  steps.foldl (fun node step => if step.1 then h step.2 node else h node step.2) x

/-- The pairs that a walk hashes. -/
def walked (h : α → α → α) : α → List (Bool × α) → List (α × α)
  | _, [] => []
  | x, (right, sibling) :: steps =>
    let pair := if right then (sibling, x) else (x, sibling)
    pair :: walked h (h pair.1 pair.2) steps

def position : List Bool → Nat
  | [] => 0
  | right :: steps => 2 * position steps + right.toNat

variable {steps : List (Bool × α)}

theorem walk_cons (h : α → α → α) (x : α) (step : Bool × α) (steps : List (Bool × α)) :
    ∃ pair, walked h x (step :: steps) = pair :: walked h (h pair.1 pair.2) steps ∧
      walk h x (step :: steps) = walk h (h pair.1 pair.2) steps ∧
      pair = if step.1 then (step.2, x) else (x, step.2) := by
  obtain ⟨right, sibling⟩ := step
  refine ⟨_, rfl, ?_, rfl⟩
  cases right <;> rfl

theorem walk_append (h : α → α → α) (x : α) (steps steps' : List (Bool × α)) :
    walk h x (steps ++ steps') = walk h (walk h x steps) steps' :=
  List.foldl_append

theorem walked_append (h : α → α → α) (x : α) (steps steps' : List (Bool × α)) :
    walked h x (steps ++ steps') = walked h x steps ++ walked h (walk h x steps) steps' := by
  induction steps generalizing x with
  | nil => rfl
  | cons step steps ih =>
    obtain ⟨pair, hwalked, hwalk, rfl⟩ := walk_cons h x step steps
    obtain ⟨pair', hwalked', -, rfl⟩ := walk_cons h x step (steps ++ steps')
    rw [List.cons_append, hwalked', hwalked, hwalk, ih, List.cons_append]

theorem exists_walked (hne : steps ≠ []) : ∃ p ∈ walked h x steps, h p.1 p.2 = walk h x steps := by
  induction steps generalizing x with
  | nil => exact absurd rfl hne
  | cons step steps ih =>
    obtain ⟨pair, hwalked, hwalk, -⟩ := walk_cons h x step steps
    rw [hwalked, hwalk]
    by_cases hsteps : steps = []
    · subst hsteps
      exact ⟨pair, List.mem_cons_self, rfl⟩
    · obtain ⟨p, hp, hnode⟩ := ih (x := h pair.1 pair.2) hsteps
      exact ⟨p, List.mem_cons_of_mem _ hp, hnode⟩

/-! ## Openings -/

/-- The steps from the node at a position to the root, over at most `n` levels. -/
def opening (h : α → α → α) (pad : α) : Nat → List α → Nat → List (Bool × α)
  | 0, _, _ => []
  | n + 1, l, i =>
    if l.length ≤ 1 then []
    else (decide (i % 2 = 1), l.getD (if i % 2 = 0 then i + 1 else i - 1) pad) :: opening h pad n (level h pad l) (i / 2)

theorem opening_left (hone : 1 < l.length) (n i : Nat) :
    opening h pad (n + 1) l (2 * i) = (false, l.getD (2 * i + 1) pad) :: opening h pad n (level h pad l) i := by
  rw [opening, if_neg (Nat.not_le.mpr hone), Nat.mul_mod_right, if_pos rfl, Nat.mul_div_cancel_left i Nat.two_pos]
  rfl

theorem opening_right (hone : 1 < l.length) (n i : Nat) :
    opening h pad (n + 1) l (2 * i + 1) = (true, l.getD (2 * i) pad) :: opening h pad n (level h pad l) i := by
  have hodd : (2 * i + 1) % 2 = 1 := by omega
  have hhalf : (2 * i + 1) / 2 = i := by omega
  rw [opening, if_neg (Nat.not_le.mpr hone), hodd, if_neg Nat.one_ne_zero, hhalf]
  rfl

theorem getElem?_level {i : Nat} (hi : l[i]? = some x) :
    (level h pad l)[i / 2]? = some (if i % 2 = 1 then h (l.getD (i - 1) pad) x else h x (l.getD (i + 1) pad)) := by
  induction l using pairs.induct generalizing i with
  | case1 => simp at hi
  | case2 a =>
    obtain ⟨rfl, rfl⟩ : i = 0 ∧ a = x := by
      cases i with
      | zero => exact ⟨rfl, by simpa using hi⟩
      | succ i => simp at hi
    rfl
  | case3 a b rest ih =>
    match i with
    | 0 =>
      obtain rfl : a = x := by simpa using hi
      rfl
    | 1 =>
      obtain rfl : b = x := by simpa using hi
      rfl
    | i + 2 =>
      have hdiv : (i + 2) / 2 = i / 2 + 1 := by omega
      have hmod : (i + 2) % 2 = i % 2 := by omega
      have hrest := ih (i := i) (by simpa using hi)
      rw [level] at hrest ⊢
      rw [pairs, List.map_cons, hdiv, List.getElem?_cons_succ, hrest, hmod]
      rcases i with _ | i
      · rfl
      · rfl

theorem walk_opening {n i : Nat} (hn : l.length ≤ n) (hi : l[i]? = some x) :
    walk h x (opening h pad n l i) = (reduce h pad n l).headD pad := by
  induction n generalizing l x i with
  | zero => simp [List.length_eq_zero_iff.mp (Nat.le_zero.mp hn)] at hi
  | succ n ih =>
    have hlt := (List.getElem?_eq_some_iff.mp hi).1
    by_cases hone : l.length ≤ 1
    · obtain ⟨a, rfl⟩ := List.length_eq_one_iff.mp (by omega : l.length = 1)
      obtain rfl : i = 0 := by simpa using hlt
      obtain rfl : a = x := by simpa using hi
      simp [opening, reduce, walk]
    · have hlevel := length_level h pad l
      rw [opening, reduce, if_neg hone, if_neg hone, ← ih (by omega) (getElem?_level hi)]
      by_cases hodd : i % 2 = 1
      · simp [walk, hodd]
      · simp [walk, Nat.mod_two_ne_one.mp hodd]

/-- The walk from the padding of some level, which is the root itself where there are no leaves. -/
inductive PadWalk (h : α → α → α) (pad : α) : List α → List (Bool × α) → Prop
  | empty : PadWalk h pad [] []
  | here {l : List α} (hodd : l.length % 2 = 1) (hone : 1 < l.length) :
      PadWalk h pad l (opening h pad (l.length + 1) (l ++ [pad]) l.length)
  | up {l : List α} {steps : List (Bool × α)} (hone : 1 < l.length) (hwalk : PadWalk h pad (level h pad l) steps) :
      PadWalk h pad l steps

theorem PadWalk.of_opening {i : Nat} (hlength : l.length = 2 * i + 1) (hone : 1 < l.length) (hlast : l[2 * i]? = some a)
    (hsteps : ∀ n, (level h pad l).length ≤ n → steps = opening h pad n (level h pad l) i) :
    PadWalk h pad l ((true, a) :: steps) := by
  have hodd : l.length % 2 = 1 := by omega
  have hlevel := length_level h pad l
  have hopening : opening h pad (l.length + 1) (l ++ [pad]) (2 * i + 1) = (true, a) :: steps := by
    rw [opening_right (by rw [List.length_append]; omega), level_append_pad h hodd, ← hsteps _ (by omega),
      List.getD_eq_getElem?_getD, List.getElem?_append_left (by omega), hlast, Option.getD_some]
  rw [← hopening, ← hlength]
  exact .here hodd hone

theorem PadWalk.walk_eq_root (hwalk : PadWalk h pad l steps) : walk h pad steps = root h pad l := by
  induction hwalk with
  | empty => rfl
  | @here l hodd hone =>
    have hlength : (l ++ [pad]).length = l.length + 1 := List.length_append
    have hlast : (l ++ [pad])[l.length]? = some pad := by simp
    rw [walk_opening (Nat.le_of_eq hlength) hlast, ← hlength, ← root, root_append_pad hodd hone]
  | up hone _ ih => rw [ih, root_level hone]

theorem Folds.padWalk_of_iterate (hf : Folds h pad P (d + k) l r) (hwalk : PadWalk h pad ((level h pad)^[k] l) steps) :
    PadWalk h pad l steps := by
  induction k generalizing l with
  | zero => exact hwalk
  | succ k ih =>
    cases hf with
    | up hone _ hrest => exact .up hone (ih hrest hwalk)

section Injective

variable (hinj : ∀ p q, P p → P q → h p.1 p.2 = h q.1 q.2 → p = q) (hpad : ∀ p, P p → h p.1 p.2 ≠ pad)
include hinj hpad

theorem Folds.eq_opening (hf : Folds h pad P steps.length l r) (hwalk : walk h x steps = r)
    (hsteps : ∀ p ∈ walked h x steps, P p) :
    (l[position (steps.map Prod.fst)]? = some x ∧
      ∀ n, l.length ≤ n → steps = opening h pad n l (position (steps.map Prod.fst))) ∨ x = pad ∧ PadWalk h pad l steps := by
  induction steps generalizing l x with
  | nil =>
    obtain rfl := hf.eq_singleton
    refine .inl ⟨by rw [← hwalk]; rfl, fun n _ => ?_⟩
    cases n <;> rfl
  | cons step steps ih =>
    obtain ⟨pair, hwalked, hwalk', hpair⟩ := walk_cons h x step steps
    rw [hwalked, List.forall_mem_cons] at hsteps
    cases hf with
    | up hone hpairs hrest =>
      have hlevel := length_level h pad l
      -- the node after the first step is a hash, so it is not the padding
      obtain ⟨hnode, hopening⟩ := (ih hrest (hwalk' ▸ hwalk) hsteps.2).resolve_right
        fun hend => hpad pair hsteps.1 hend.1
      rw [level, List.getElem?_map, Option.map_eq_some_iff] at hnode
      obtain ⟨p, hp, hcollide⟩ := hnode
      obtain rfl := hinj p pair (hpairs p (List.mem_of_getElem? hp)) hsteps.1 hcollide
      obtain ⟨right, sibling⟩ := step
      obtain rfl := hpair
      cases right with
      | false =>
        refine .inl ⟨(getElem?_pairs hp).1, fun n hn => ?_⟩
        obtain ⟨n, rfl⟩ := Nat.exists_eq_succ_of_ne_zero (show n ≠ 0 by omega)
        refine Eq.trans ?_ (opening_left hone n _).symm
        rw [(getD_of_pairs hp).2, ← hopening n (by omega)]
      | true =>
        rcases (getElem?_pairs hp).2 with hright | ⟨hlength, rfl⟩
        · refine .inl ⟨hright, fun n hn => ?_⟩
          obtain ⟨n, rfl⟩ := Nat.exists_eq_succ_of_ne_zero (show n ≠ 0 by omega)
          refine Eq.trans ?_ (opening_right hone n _).symm
          rw [(getD_of_pairs hp).1, ← hopening n (by omega)]
        · exact .inr ⟨rfl, .of_opening hlength hone (getElem?_pairs hp).1 hopening⟩

/-- A walk to the root starts at a leaf or at the padding, when no node of the tree is a leaf or where it starts. -/
theorem Folds.getElem?_of_walk (hf : Folds h pad P d l r) (hwalk : walk h x steps = r)
    (hsteps : ∀ p ∈ walked h x steps, P p) (hnode : ∀ p, P p → h p.1 p.2 ≠ x) (hleaf : ∀ p, P p → h p.1 p.2 ∉ l) :
    l[position (steps.map Prod.fst)]? = some x ∨ x = pad ∧ PadWalk h pad l steps := by
  rcases Nat.lt_trichotomy steps.length d with hlt | rfl | hlt
  · obtain ⟨k, rfl⟩ := Nat.exists_eq_add_of_lt hlt
    rcases hf.iterate (k := k + 1).eq_opening hinj hpad hwalk hsteps with ⟨hget, -⟩ | ⟨hx, hpadWalk⟩
    · obtain ⟨p, hp, heq⟩ := hf.exists_pair (k := k) (List.mem_of_getElem? hget)
      exact absurd heq (hnode p hp)
    · exact .inr ⟨hx, hf.padWalk_of_iterate (k := k + 1) hpadWalk⟩
  · exact (hf.eq_opening hinj hpad hwalk hsteps).imp_left And.left
  · -- the walk passes a node before it is as far from the root as the leaves
    rw [← List.take_append_drop (steps.length - d) steps] at hwalk hsteps
    rw [walk_append] at hwalk
    rw [walked_append] at hsteps
    have hne : steps.take (steps.length - d) ≠ [] := by
      rw [← List.length_pos_iff, List.length_take]
      omega
    obtain ⟨p, hp, heq⟩ := exists_walked (h := h) (x := x) hne
    have hp := hsteps p (List.mem_append_left _ hp)
    have hlength : (steps.drop (steps.length - d)).length = d := by
      rw [List.length_drop]
      omega
    rcases (hlength.symm ▸ hf).eq_opening hinj hpad hwalk (fun p hp => hsteps p (List.mem_append_right _ hp)) with
      ⟨hget, -⟩ | ⟨hx, -⟩
    · exact absurd (heq ▸ List.mem_of_getElem? hget) (hleaf p hp)
    · exact absurd (heq.trans hx) (hpad p hp)

end Injective

/-! ## Equal roots -/

/-- The second list is the first with the padding of its last node, or the padding alone. -/
def Padded (pad : α) (l l' : List α) : Prop := l' = l ++ [pad] ∧ (l = [] ∨ l.length % 2 = 1 ∧ 1 < l.length)

theorem Padded.root_eq (hp : Padded pad l l') : root h pad l = root h pad l' := by
  obtain ⟨rfl, rfl | ⟨hodd, hone⟩⟩ := hp
  · rfl
  · exact (root_append_pad hodd hone).symm

theorem pairs_cases (heq : pairs pad l = pairs pad l') :
    l = l' ∨ (l' = l ++ [pad] ∧ l.length % 2 = 1) ∨ (l = l' ++ [pad] ∧ l'.length % 2 = 1) := by
  induction l using pairs.induct generalizing l' with
  | case1 =>
    match l', heq with
    | [], _ => exact .inl rfl
    | [b], heq => simp [pairs] at heq
    | b :: c :: rest, heq => simp [pairs] at heq
  | case2 a =>
    match l', heq with
    | [], heq => simp [pairs] at heq
    | [b], heq => exact .inl (by simpa [pairs] using heq)
    | [b, c], heq =>
      obtain ⟨rfl, rfl⟩ : a = b ∧ pad = c := by simpa [pairs] using heq
      exact .inr (.inl ⟨rfl, rfl⟩)
    | [b, c, c'], heq => simp [pairs] at heq
    | b :: c :: c' :: c'' :: rest, heq => simp [pairs] at heq
  | case3 a b rest ih =>
    match l', heq with
    | [], heq => simp [pairs] at heq
    | [c], heq =>
      simp only [pairs, List.cons.injEq, Prod.mk.injEq] at heq
      obtain ⟨⟨rfl, rfl⟩, hrest⟩ := heq
      obtain rfl : rest = [] := by
        rcases rest with _ | ⟨d, _ | _⟩
        · rfl
        · cases hrest
        · cases hrest
      exact .inr (.inr ⟨rfl, rfl⟩)
    | c :: c' :: rest', heq =>
      simp only [pairs, List.cons.injEq, Prod.mk.injEq] at heq
      obtain ⟨⟨rfl, rfl⟩, hrest⟩ := heq
      rcases ih hrest with rfl | ⟨rfl, hodd⟩ | ⟨rfl, hodd⟩
      · exact .inl rfl
      · exact .inr (.inl ⟨rfl, by simp only [List.length_cons]; omega⟩)
      · exact .inr (.inr ⟨rfl, by simp only [List.length_cons]; omega⟩)

section Injective

variable (hinj : ∀ p q, P p → P q → h p.1 p.2 = h q.1 q.2 → p = q) (hpad : ∀ p, P p → h p.1 p.2 ≠ pad)
include hinj hpad

theorem Folds.eq_or_padded (hf : Folds h pad P d l r) (hf' : Folds h pad P d l' r) :
    l = l' ∨ Padded pad l l' ∨ Padded pad l' l := by
  induction d generalizing l l' with
  | zero => exact .inl (hf.eq_singleton.trans hf'.eq_singleton.symm)
  | succ d ih =>
    -- a level of hashes has no padding
    have hlevel {l l' : List α} (hpairs : ∀ p ∈ pairs pad l', P p) : ¬Padded pad (level h pad l) (level h pad l') := by
      rintro ⟨heq, -⟩
      have hmem : pad ∈ level h pad l' := heq ▸ List.mem_append_right _ List.mem_cons_self
      obtain ⟨p, hp, hnode⟩ := List.mem_map.mp hmem
      exact hpad p (hpairs p hp) hnode
    cases hf with
    | up hone hpairs hrest =>
      cases hf' with
      | up hone' hpairs' hrest' =>
        have heq := (ih hrest hrest').resolve_right (not_or.mpr ⟨hlevel hpairs', hlevel hpairs⟩)
        have hpairsEq := eq_of_map_eq (fun p hp q hq => hinj p q (hpairs p hp) (hpairs' q hq)) heq
        exact (pairs_cases hpairsEq).imp_right (Or.imp (And.imp_right fun hodd => .inr ⟨hodd, hone⟩)
          (And.imp_right fun hodd => .inr ⟨hodd, hone'⟩))

theorem Folds.not_higher (hf : Folds h pad P d l r) (hf' : Folds h pad P (d + (k + 1)) l' r)
    (hleaf : ∀ p, P p → h p.1 p.2 ∉ l) : False := by
  have hnode : ∀ x ∈ (level h pad)^[k + 1] l', x ∉ l := by
    intro x hx
    obtain ⟨p, hp, rfl⟩ := hf'.exists_pair hx
    exact hleaf p hp
  obtain ⟨x, hx⟩ := List.exists_mem_of_ne_nil _ (hf'.iterate (k := k + 1)).ne_nil
  rcases hf.eq_or_padded hinj hpad (hf'.iterate (k := k + 1)) with heq | ⟨heq, -⟩ | ⟨heq, -⟩
  · exact hnode x hx (heq ▸ hx)
  · obtain ⟨y, hy⟩ := List.exists_mem_of_ne_nil l hf.ne_nil
    exact hnode y (heq ▸ List.mem_append_left _ hy) hy
  · exact hnode x hx (heq ▸ List.mem_append_left _ hx)

theorem Folds.inj (hf : Folds h pad P d l r) (hf' : Folds h pad P k l' r)
    (hleaf : ∀ p, P p → h p.1 p.2 ∉ l) (hleaf' : ∀ p, P p → h p.1 p.2 ∉ l') :
    l = l' ∨ Padded pad l l' ∨ Padded pad l' l := by
  rcases Nat.lt_trichotomy d k with hlt | rfl | hlt
  · obtain ⟨j, rfl⟩ := Nat.exists_eq_add_of_lt hlt
    exact (hf.not_higher hinj hpad (k := j) hf' hleaf).elim
  · exact hf.eq_or_padded hinj hpad hf'
  · obtain ⟨j, rfl⟩ := Nat.exists_eq_add_of_lt hlt
    exact (hf'.not_higher hinj hpad (k := j) hf hleaf').elim

end Injective

end SovereignNetwork.Lib.PaddedMerkle
