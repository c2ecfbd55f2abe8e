import Mathlib.Algebra.Group.Nat.Even
import Mathlib.Data.List.Basic
import Mathlib.Data.List.Induction

/-!
# Merkle trees with a doubled last node

Each level hashes neighbouring nodes, an odd last node with itself.
-/

namespace SovereignNetwork.Lib.Merkle

variable {α : Type} {h : α → α → α} {P Q : α × α → Prop} {l l' : List α} {a a' r : α} {d k : Nat}

/-- The pairs that one level hashes. -/
def pairs : List α → List (α × α)
  | [] => []
  | [a] => [(a, a)]
  | a :: b :: rest => (a, b) :: pairs rest

def level (h : α → α → α) (l : List α) : List α := (pairs l).map fun p => h p.1 p.2

/-- Levels are hashed until one node is left. -/
def reduce (h : α → α → α) : Nat → List α → List α
  | 0, l => l
  | n + 1, l => if l.length ≤ 1 then l else reduce h n (level h l)

/-- There are at most as many levels as leaves. -/
def root (h : α → α → α) (l : List α) : Option α := (reduce h l.length l).head?

/-- The pairs hashed on all levels. -/
def hashed (h : α → α → α) : Nat → List α → List (α × α)
  | 0, _ => []
  | n + 1, l => if l.length ≤ 1 then [] else pairs l ++ hashed h n (level h l)

theorem eq_of_map_eq {β : Type} {f : α → β} (hinj : ∀ a ∈ l, ∀ b ∈ l', f a = f b → a = b)
    (heq : l.map f = l'.map f) : l = l' := by
  induction l generalizing l' with
  | nil => simpa [eq_comm] using heq
  | cons a l ih =>
    cases l' with
    | nil => simp at heq
    | cons b l' =>
      simp only [List.map_cons, List.cons.injEq] at heq
      obtain rfl := hinj a List.mem_cons_self b List.mem_cons_self heq.1
      rw [ih (fun a ha b hb => hinj a (List.mem_cons_of_mem _ ha) b (List.mem_cons_of_mem _ hb)) heq.2]

/-! ## Levels -/

theorem length_pairs (l : List α) : (pairs l).length = (l.length + 1) / 2 := by
  fun_induction pairs l with
  | case1 => simp
  | case2 a => simp
  | case3 a b rest ih =>
    simp only [List.length_cons, ih]
    omega

theorem length_level (h : α → α → α) (l : List α) : (level h l).length = (l.length + 1) / 2 := by
  rw [level, List.length_map, length_pairs]

/-- The list is `d` levels below the root `r`, and the pairs hashed on the way meet `P`. -/
inductive Folds (h : α → α → α) (P : α × α → Prop) : Nat → List α → α → Prop
  | single (a : α) : Folds h P 0 [a] a
  | up {d : Nat} {l : List α} {r : α} (hpairs : ∀ p ∈ pairs l, P p) (hrest : Folds h P d (level h l) r) :
      Folds h P (d + 1) l r

theorem Folds.mono (hPQ : ∀ p, P p → Q p) (hf : Folds h P d l r) : Folds h Q d l r := by
  induction hf with
  | single a => exact .single a
  | up hpairs _ ih => exact .up (fun p hp => hPQ p (hpairs p hp)) ih

theorem folds_reduce {n : Nat} (hl : l ≠ []) (hn : l.length ≤ n) :
    ∃ d r, reduce h n l = [r] ∧ Folds h (· ∈ hashed h n l) d l r := by
  induction n generalizing l with
  | zero => exact absurd (List.length_eq_zero_iff.mp (Nat.le_zero.mp hn)) hl
  | succ n ih =>
    have hpos := List.length_pos_iff.mpr hl
    by_cases hone : l.length ≤ 1
    · obtain ⟨a, rfl⟩ := List.length_eq_one_iff.mp (Nat.le_antisymm hone hpos)
      exact ⟨0, a, by simp [reduce], .single a⟩
    · have hlength := length_level h l
      obtain ⟨d, r, hreduce, hf⟩ := ih (l := level h l) (List.length_pos_iff.mp (by omega)) (by omega)
      refine ⟨d + 1, r, by rw [reduce, if_neg hone, hreduce], ?_⟩
      simp only [hashed, if_neg hone, List.mem_append]
      exact .up (fun p hp => .inl hp) (hf.mono fun p hp => .inr hp)

theorem exists_root (hl : l ≠ []) :
    ∃ d r, root h l = some r ∧ Folds h (· ∈ hashed h l.length l) d l r := by
  obtain ⟨d, r, hreduce, hf⟩ := folds_reduce (h := h) hl (Nat.le_refl _)
  exact ⟨d, r, by rw [root, hreduce, List.head?_cons], hf⟩

theorem Folds.root_cases (hf : Folds h P d l r) : r ∈ l ∨ ∃ p, P p ∧ h p.1 p.2 = r := by
  induction hf with
  | single a => exact .inl List.mem_cons_self
  | up hpairs _ ih =>
    rcases ih with hmem | hnode
    · obtain ⟨p, hp, rfl⟩ := List.mem_map.mp hmem
      exact .inr ⟨p, hpairs p hp, rfl⟩
    · exact .inr hnode

theorem mem_pairs {p : α × α} (hp : p ∈ pairs l) : p.1 ∈ l ∧ p.2 ∈ l := by
  fun_induction pairs l with
  | case1 => cases hp
  | case2 a =>
    obtain rfl := List.mem_singleton.mp hp
    simp
  | case3 a b rest ih =>
    rcases List.mem_cons.mp hp with rfl | hp
    · simp
    · exact ⟨.tail _ (.tail _ (ih hp).1), .tail _ (.tail _ (ih hp).2)⟩

theorem Folds.rule {R : Nat → α → Prop} (hstep : ∀ j p, P p → R j p.1 → R j p.2 → R (j + 1) (h p.1 p.2))
    (hf : Folds h P d l r) (hl : ∀ a ∈ l, R k a) : R (k + d) r := by
  induction hf generalizing k with
  | single a => exact hl a List.mem_cons_self
  | @up d l r hpairs _ ih =>
    rw [Nat.add_comm d, ← Nat.add_assoc]
    refine ih fun b hb => ?_
    obtain ⟨p, hp, rfl⟩ := List.mem_map.mp hb
    exact hstep k p (hpairs p hp) (hl _ (mem_pairs hp).1) (hl _ (mem_pairs hp).2)

/-! ## The tree under the root -/

inductive Tree (α : Type)
  | leaf (a : α)
  | node (left right : Tree α)

namespace Tree

def eval (h : α → α → α) : Tree α → α
  | leaf a => a
  | node left right => h (left.eval h) (right.eval h)

def leaves : Tree α → List α
  | leaf a => [a]
  | node left right => left.leaves ++ right.leaves

/-- The tree has `d` levels, and the pairs hashed there meet `P`. -/
def Full (h : α → α → α) (P : α × α → Prop) : Nat → Tree α → Prop
  | 0, leaf _ => True
  | d + 1, node left right => P (left.eval h, right.eval h) ∧ left.Full h P d ∧ right.Full h P d
  | _, _ => False

variable {t t' : Tree α}

theorem Full.length_leaves (ht : t.Full h P d) : t.leaves.length = 2 ^ d := by
  induction t generalizing d with
  | leaf a =>
    cases d with
    | zero => rfl
    | succ d => cases ht
  | node left right ihl ihr =>
    cases d with
    | zero => cases ht
    | succ d => rw [leaves, List.length_append, ihl ht.2.1, ihr ht.2.2, Nat.pow_succ, Nat.mul_two]

theorem Full.eq_of_leaves (ht : t.Full h P d) (ht' : t'.Full h P k) (heq : t.leaves = t'.leaves) : t = t' := by
  obtain rfl : d = k := by
    refine (Nat.pow_right_inj (Nat.lt_succ_self 1)).mp ?_
    rw [← ht.length_leaves, ← ht'.length_leaves, heq]
  induction d generalizing t t' with
  | zero =>
    match t, t' with
    | leaf a, leaf b => exact congrArg leaf (List.cons.inj heq).1
  | succ d ih =>
    match t, t', ht, ht' with
    | node left right, node left' right', ht, ht' =>
      obtain ⟨hl, hr⟩ := List.append_inj heq (by rw [ht.2.1.length_leaves, ht'.2.1.length_leaves])
      rw [ih ht.2.1 hl ht'.2.1, ih ht.2.2 hr ht'.2.2]

section Injective

variable (hinj : ∀ p q, P p → P q → h p.1 p.2 = h q.1 q.2 → p = q)
include hinj

theorem Full.eval_inj (ht : t.Full h P d) (ht' : t'.Full h P d) (heq : t.eval h = t'.eval h) : t = t' := by
  induction d generalizing t t' with
  | zero =>
    match t, t' with
    | leaf a, leaf b => exact congrArg leaf heq
  | succ d ih =>
    match t, t', ht, ht' with
    | node left right, node left' right', ht, ht' =>
      obtain ⟨hl, hr⟩ := Prod.mk.inj (hinj _ _ ht.1 ht'.1 heq)
      rw [ih ht.2.1 ht'.2.1 hl, ih ht.2.2 ht'.2.2 hr]

theorem Full.not_higher (ht : t.Full h P d) (ht' : t'.Full h P k) (hlt : d < k) (heq : t.eval h = t'.eval h)
    (ha : a ∈ t.leaves) : ∃ p, P p ∧ h p.1 p.2 = a := by
  induction d generalizing k t t' with
  | zero =>
    match k, t, t', ht' with
    | k + 1, leaf b, node left right, ht' =>
      obtain rfl := List.mem_singleton.mp ha
      exact ⟨_, ht'.1, heq.symm⟩
  | succ d ih =>
    match k, t, t', ht, ht' with
    | k + 1, node left right, node left' right', ht, ht' =>
      obtain ⟨hl, hr⟩ := Prod.mk.inj (hinj _ _ ht.1 ht'.1 heq)
      rcases List.mem_append.mp ha with ha | ha
      · exact ih ht.2.1 ht'.2.1 (Nat.lt_of_succ_lt_succ hlt) hl ha
      · exact ih ht.2.2 ht'.2.2 (Nat.lt_of_succ_lt_succ hlt) hr ha

end Injective

end Tree

section Maps

variable {β : Type} {g : β → β → β} {f : β → α}

theorem pairs_map (f : β → α) (l : List β) : pairs (l.map f) = (pairs l).map (Prod.map f f) := by
  fun_induction pairs l with
  | case1 => rfl
  | case2 => rfl
  | case3 a b rest ih => rw [List.map_cons, List.map_cons, pairs, ih, List.map_cons, Prod.map]

variable (hf : ∀ a b, f (g a b) = h (f a) (f b))
include hf

theorem level_map (l : List β) : level h (l.map f) = (level g l).map f := by
  simp only [level, pairs_map, List.map_map]
  exact List.map_congr_left fun p _ => (hf p.1 p.2).symm

theorem root_map (l : List β) : root h (l.map f) = (root g l).map f := by
  have hreduce (n : Nat) (l : List β) : reduce h n (l.map f) = (reduce g n l).map f := by
    induction n generalizing l with
    | zero => rfl
    | succ n ih => rw [reduce, reduce, List.length_map, level_map hf, ih, apply_ite (List.map f)]
  rw [root, root, hreduce, List.length_map, List.head?_map]

theorem hashed_map (n : Nat) (l : List β) : hashed h n (l.map f) = (hashed g n l).map (Prod.map f f) := by
  induction n generalizing l with
  | zero => rfl
  | succ n ih =>
    rw [hashed, hashed, List.length_map, pairs_map, level_map hf, ih, apply_ite (List.map _), List.map_append,
      List.map_nil]

end Maps

/-- The leaves from left to right, where those of a doubled node stand twice. -/
def fill (l : List α) : List α := (root (· ++ ·) (l.map ([·]))).getD []

example : fill [1, 2, 3, 4, 5] = [1, 2, 3, 4, 5, 5, 5, 5] := by decide

theorem exists_tree (hl : l ≠ []) (hP : ∀ p ∈ hashed h l.length l, P p) :
    ∃ (d : Nat) (t : Tree α), t.Full h P d ∧ root h l = some (t.eval h) ∧ t.leaves = fill l := by
  obtain ⟨d, t, hroot, hfolds⟩ := exists_root (h := Tree.node) (l := l.map .leaf) (List.map_eq_nil_iff.not.mpr hl)
  have heval : (l.map Tree.leaf).map (Tree.eval h) = l := by simp [Function.comp_def, Tree.eval]
  have hleaves : (l.map Tree.leaf).map Tree.leaves = l.map ([·]) := by simp [Function.comp_def, Tree.leaves]
  refine ⟨d, t, ?_, ?_, ?_⟩
  · rw [← Nat.zero_add d]
    refine Folds.rule (h := Tree.node) (R := Tree.Full h P) (fun j p hp hleft hright => ⟨hP _ ?_, hleft, hright⟩) hfolds
      (by simp [Tree.Full])
    have hmem := List.mem_map_of_mem (f := Prod.map (Tree.eval h) (Tree.eval h)) hp
    rwa [← hashed_map (fun _ _ => rfl), heval, List.length_map] at hmem
  · rw [← heval, root_map (g := Tree.node) (fun _ _ => rfl), hroot, Option.map_some]
  · rw [fill, ← hleaves, root_map (g := Tree.node) (h := (· ++ ·)) (fun _ _ => rfl), hroot, Option.map_some, Option.getD_some]

theorem prefix_fill (l : List α) : l <+: fill l := by
  have hlevel (gs : List (List α)) : gs.flatten <+: (level (· ++ ·) gs).flatten := by
    rw [level]
    fun_induction pairs gs with
    | case1 => exact List.prefix_refl _
    | case2 g => simp
    | case3 g g' rest ih => simpa using ih
  have hreduce (n : Nat) (gs : List (List α)) : gs.flatten <+: (reduce (· ++ ·) n gs).flatten := by
    induction n generalizing gs with
    | zero => exact List.prefix_refl _
    | succ n ih =>
      rw [reduce]
      split
      · exact List.prefix_refl _
      · exact (hlevel gs).trans (ih _)
  by_cases hl : l = []
  · rw [hl]
    exact List.nil_prefix
  · obtain ⟨-, E, hroot, -⟩ := folds_reduce (h := (· ++ ·)) (l := l.map ([·])) (List.map_eq_nil_iff.not.mpr hl)
      (Nat.le_refl _)
    have hbegins := hreduce (l.map ([·])).length (l.map ([·]))
    have hsingle : (l.map ([·])).flatten = l := by simp [List.flatten_eq_flatMap, List.flatMap_map]
    rw [hsingle, hroot] at hbegins
    rw [fill, root, hroot]
    simpa using hbegins

theorem mem_of_mem_fill (ha : a ∈ fill l) : a ∈ l := by
  by_cases hl : l = []
  · subst hl
    cases ha
  · obtain ⟨d, E, hroot, hfolds⟩ := exists_root (h := (· ++ ·)) (l := l.map ([·])) (List.map_eq_nil_iff.not.mpr hl)
    have hsubset := hfolds.rule (R := fun _ g => ∀ b ∈ g, b ∈ l) (k := 0)
      (fun _ p _ hleft hright b hb => (List.mem_append.mp hb).elim (hleft b) (hright b)) (by simp)
    rw [fill, hroot] at ha
    exact hsubset a ha

theorem fill_map {β : Type} (f : β → α) (l : List β) : fill (l.map f) = (fill l).map f := by
  have hsingle : (l.map f).map ([·]) = (l.map ([·])).map (List.map f) := by simp
  rw [fill, hsingle, root_map (g := (· ++ ·)) (h := (· ++ ·)) (fun _ _ => List.map_append), fill]
  cases root (· ++ ·) (l.map ([·])) <;> rfl

/-- Trees that hash no two pairs alike, and no pair to some leaf of each, share a root exactly if they have the same
leaves with those that are doubled. -/
theorem root_eq_root_iff (ha : a ∈ l) (ha' : a' ∈ l')
    (hinj : ∀ p ∈ hashed h l.length l ++ hashed h l'.length l', ∀ q ∈ hashed h l.length l ++ hashed h l'.length l',
      h p.1 p.2 = h q.1 q.2 → p = q)
    (hleaf : ∀ p ∈ hashed h l.length l ++ hashed h l'.length l', h p.1 p.2 ≠ a ∧ h p.1 p.2 ≠ a') :
    root h l = root h l' ↔ fill l = fill l' := by
  obtain ⟨d, t, ht, hroot, hfill⟩ := exists_tree (List.ne_nil_of_mem ha) fun _ => List.mem_append_left _
  obtain ⟨k, t', ht', hroot', hfill'⟩ := exists_tree (List.ne_nil_of_mem ha') fun _ => List.mem_append_right _
  rw [hroot, hroot', Option.some.injEq, ← hfill, ← hfill']
  refine ⟨fun heq => ?_, fun heq => by rw [ht.eq_of_leaves ht' heq]⟩
  rcases Nat.lt_trichotomy d k with hlt | rfl | hlt
  · obtain ⟨p, hp, hnode⟩ := ht.not_higher (fun p q hp => hinj p hp q) ht' hlt heq (hfill ▸ (prefix_fill l).subset ha)
    exact absurd hnode (hleaf p hp).1
  · rw [ht.eval_inj (fun p q hp => hinj p hp q) ht' heq]
  · obtain ⟨p, hp, hnode⟩ := ht'.not_higher (fun p q hp => hinj p hp q) ht hlt heq.symm (hfill' ▸ (prefix_fill l').subset ha')
    exact absurd hnode (hleaf p hp).2

theorem eq_of_fill_of_length (hfill : fill l = fill l') (hlength : l.length = l'.length) : l = l' := by
  have hbegins := prefix_fill l
  rw [hfill] at hbegins
  exact (List.prefix_of_prefix_length_le hbegins (prefix_fill l') (Nat.le_of_eq hlength)).eq_of_length hlength

/-- The last element occurs once. -/
def LastOnce (l : List α) (a : α) : Prop := ∃ init, l = init ++ [a] ∧ a ∉ init

theorem LastOnce.mem (hlast : LastOnce l a) : a ∈ l := by
  obtain ⟨init, rfl, -⟩ := hlast
  simp

/-- The pairs hashed on the way up from `a`. -/
def leftPairs (h : α → α → α) : α → List α → List (α × α)
  | _, [] => []
  | a, sibling :: proof => (a, sibling) :: leftPairs h (h a sibling) proof

theorem leftPairs_concat (h : α → α → α) (a : α) (proof : List α) (sibling : α) :
    leftPairs h a (proof ++ [sibling]) = leftPairs h a proof ++ [(proof.foldl h a, sibling)] := by
  induction proof generalizing a with
  | nil => rfl
  | cons s proof ih => rw [List.cons_append, leftPairs, ih, leftPairs, List.cons_append, List.foldl_cons]

theorem Folds.exists_left {rest : List α} (hf : Folds h P d l r) (hl : l = a :: rest) :
    ∃ proof, proof.foldl h a = r ∧ ∀ p ∈ leftPairs h a proof, P p := by
  induction hf generalizing a rest with
  | single b =>
    obtain ⟨rfl, -⟩ := List.cons.inj hl
    exact ⟨[], rfl, fun _ hp => absurd hp List.not_mem_nil⟩
  | @up d l r hpairs _ ih =>
    subst hl
    obtain ⟨b, rest', hlevel, hpair⟩ : ∃ b rest', level h (a :: rest) = h a b :: rest' ∧ (a, b) ∈ pairs (a :: rest) := by
      cases rest with
      | nil => exact ⟨a, [], rfl, List.mem_cons_self⟩
      | cons b rest => exact ⟨b, _, rfl, List.mem_cons_self⟩
    obtain ⟨proof, hfold, hproof⟩ := ih hlevel
    refine ⟨b :: proof, hfold, fun p hp => ?_⟩
    rcases List.mem_cons.mp hp with rfl | hp
    · exact hpairs _ hpair
    · exact hproof p hp

theorem leftWalk_cases {b : α} (proof proof' : List α)
    (hinj : ∀ p ∈ leftPairs h a proof, ∀ q ∈ leftPairs h b proof', h p.1 p.2 = h q.1 q.2 → p = q)
    (heq : proof.foldl h a = proof'.foldl h b) :
    a = b ∨ (∃ q ∈ leftPairs h b proof', h q.1 q.2 = a) ∨ ∃ p ∈ leftPairs h a proof, h p.1 p.2 = b := by
  induction proof' using List.reverseRecOn generalizing proof with
  | nil =>
    induction proof using List.reverseRecOn with
    | nil => exact .inl heq
    | append_singleton proof sibling _ =>
      rw [List.foldl_concat] at heq
      exact .inr (.inr ⟨(proof.foldl h a, sibling), by rw [leftPairs_concat]; simp, heq⟩)
  | append_singleton proof' sibling' ih =>
    rw [List.foldl_concat] at heq
    induction proof using List.reverseRecOn with
    | nil => exact .inr (.inl ⟨(proof'.foldl h b, sibling'), by rw [leftPairs_concat]; simp, heq.symm⟩)
    | append_singleton proof sibling _ =>
      rw [List.foldl_concat] at heq
      simp only [leftPairs_concat, List.mem_append, List.mem_singleton] at hinj ⊢
      have hpair := hinj _ (.inr rfl) _ (.inr rfl) heq
      rcases ih proof (fun p hp q hq => hinj p (.inl hp) q (.inl hq)) (congrArg Prod.fst hpair) with
        hab | ⟨q, hq, hnode⟩ | ⟨p, hp, hnode⟩
      · exact .inl hab
      · exact .inr (.inl ⟨q, .inl hq, hnode⟩)
      · exact .inr (.inr ⟨p, .inl hp, hnode⟩)

end SovereignNetwork.Lib.Merkle
