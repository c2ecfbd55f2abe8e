import Mathlib.Algebra.Group.Action.Defs
import Mathlib.Algebra.Order.BigOperators.Group.List
import Mathlib.Algebra.Ring.Nat
import Mathlib.Algebra.Order.Group.Nat
import Mathlib.Data.List.Pairwise

/-!
# Costs over a line cut into bands

The cost of a span is added up over the bands that it crosses. Within a band the cost may be rounded, so that cutting
a span in two costs a little less than the whole, by no more than the defect.
-/

namespace SovereignNetwork.Lib

structure Banded (β : Type) where
  bands : List β
  lo : β → Nat
  hi : β → Nat
  cost : β → Nat → Nat → Nat
  defect : Nat
  lo_le_hi : ∀ band ∈ bands, lo band ≤ hi band
  ordered : bands.Pairwise fun band band' => hi band ≤ lo band'
  cost_self : ∀ band x, cost band x x = 0
  cost_add_le : ∀ band ∈ bands, ∀ x y z, lo band ≤ x → x ≤ y → y ≤ z → cost band x y + cost band y z ≤ cost band x z
  cost_le_add : ∀ band ∈ bands, ∀ x y z, lo band ≤ x → x ≤ y → y ≤ z →
    cost band x z ≤ cost band x y + cost band y z + defect

namespace Banded

variable {β : Type} (B : Banded β) {band : β} {a b c m x y : Nat}

/-- The point of the band next to `x`. -/
def clamp (band : β) (x : Nat) : Nat := max (B.lo band) (min x (B.hi band))

/-- The cost of what the span has in the band. -/
def part (band : β) (a b : Nat) : Nat := B.cost band (B.clamp band a) (B.clamp band b)

def span (a b : Nat) : Nat := (B.bands.map fun band => B.part band a b).sum

/-- The point is inside of no band. -/
def Boundary (m : Nat) : Prop := ∀ band ∈ B.bands, m ≤ B.lo band ∨ B.hi band ≤ m

/-! ## Bands -/

/-- One of two bands lies below the other. -/
def Apart (band band' : β) : Prop := band = band' ∨ B.hi band ≤ B.lo band' ∨ B.hi band' ≤ B.lo band

instance : Std.Symm B.Apart where
  symm _ _ h := h.imp Eq.symm Or.symm

theorem apart {band band' : β} (h : band ∈ B.bands) (h' : band' ∈ B.bands) : B.Apart band band' :=
  List.Pairwise.forall_of_forall (fun _ _ => .inl rfl) (B.ordered.imp fun h => .inr (.inl h)) h h'

theorem boundary_lo (hband : band ∈ B.bands) : B.Boundary (B.lo band) := by
  intro band' hband'
  have hle := B.lo_le_hi band hband
  rcases B.apart hband hband' with rfl | h | h
  · exact .inl le_rfl
  · exact .inl (hle.trans h)
  · exact .inr h

theorem boundary_hi (hband : band ∈ B.bands) : B.Boundary (B.hi band) := by
  intro band' hband'
  have hle := B.lo_le_hi band hband
  rcases B.apart hband hband' with rfl | h | h
  · exact .inr le_rfl
  · exact .inl h
  · exact .inr (h.trans hle)

/-! ## One band -/

theorem clamp_mono (h : x ≤ y) : B.clamp band x ≤ B.clamp band y := by
  unfold clamp
  omega

theorem lo_le_clamp : B.lo band ≤ B.clamp band x := le_max_left _ _

theorem clamp_le_hi (hband : band ∈ B.bands) : B.clamp band x ≤ B.hi band := by
  have := B.lo_le_hi band hband
  unfold clamp
  omega

theorem part_self : B.part band a a = 0 := B.cost_self _ _

theorem part_add_le (hband : band ∈ B.bands) (hab : a ≤ b) (hbc : b ≤ c) :
    B.part band a b + B.part band b c ≤ B.part band a c :=
  B.cost_add_le band hband _ _ _ B.lo_le_clamp (B.clamp_mono hab) (B.clamp_mono hbc)

theorem part_le_add (hband : band ∈ B.bands) (hab : a ≤ b) (hbc : b ≤ c) :
    B.part band a c ≤ B.part band a b + B.part band b c + B.defect :=
  B.cost_le_add band hband _ _ _ B.lo_le_clamp (B.clamp_mono hab) (B.clamp_mono hbc)

theorem part_below (hab : a ≤ b) (hb : b ≤ B.lo band) : B.part band a b = 0 := by
  have heq : B.clamp band a = B.clamp band b := by
    unfold clamp
    omega
  rw [part, heq, B.cost_self]

theorem part_above (hband : band ∈ B.bands) (hab : a ≤ b) (ha : B.hi band ≤ a) : B.part band a b = 0 := by
  have heq : B.clamp band a = B.clamp band b := by
    have := B.lo_le_hi band hband
    unfold clamp
    omega
  rw [part, heq, B.cost_self]

theorem part_add (hband : band ∈ B.bands) (hab : a ≤ m) (hbc : m ≤ c) (hm : m ≤ B.lo band ∨ B.hi band ≤ m) :
    B.part band a c = B.part band a m + B.part band m c := by
  have hle := B.lo_le_hi band hband
  rcases hm with hm | hm
  · have heq : B.clamp band a = B.clamp band m := by
      unfold clamp
      omega
    rw [B.part_below hab hm, Nat.zero_add, part, part, heq]
  · have heq : B.clamp band c = B.clamp band m := by
      unfold clamp
      omega
    rw [B.part_above hband hbc hm, Nat.add_zero, part, part, heq]

/-! ## Spans -/

theorem span_self : B.span a a = 0 := by
  refine List.sum_eq_zero ?_
  rintro _ hx
  obtain ⟨band, -, rfl⟩ := List.mem_map.mp hx
  exact B.part_self

theorem span_add_le (hab : a ≤ b) (hbc : b ≤ c) : B.span a b + B.span b c ≤ B.span a c := by
  rw [span, span, span, ← List.sum_map_add]
  exact List.sum_le_sum fun band hband => B.part_add_le hband hab hbc

theorem span_add_of_boundary (hm : B.Boundary m) (ha : a ≤ m) (hb : m ≤ b) : B.span a b = B.span a m + B.span m b := by
  rw [span, span, span, ← List.sum_map_add]
  exact congrArg List.sum (List.map_congr_left fun band hband => B.part_add hband ha hb (hm band hband))

theorem span_le_add (hab : a ≤ b) (hbc : b ≤ c) : B.span a c ≤ B.span a b + B.span b c + B.defect := by
  suffices h : ∀ l : List β, l.Pairwise (fun band band' => B.hi band ≤ B.lo band') → (∀ band ∈ l, band ∈ B.bands) →
      (l.map fun band => B.part band a c).sum ≤
        (l.map fun band => B.part band a b + B.part band b c).sum + B.defect by
    have hall := h B.bands B.ordered fun _ => id
    rwa [List.sum_map_add] at hall
  intro l hordered hmem
  induction l with
  | nil => exact Nat.zero_le _
  | cons band l ih =>
    obtain ⟨hlater, hrest⟩ := List.pairwise_cons.mp hordered
    have hband := hmem band List.mem_cons_self
    have hsub : ∀ band ∈ l, band ∈ B.bands := fun _ h => hmem _ (List.mem_cons_of_mem _ h)
    simp only [List.map_cons, List.sum_cons]
    rcases Nat.le_total b (B.hi band) with hb | hb
    · -- All later bands lie above the cut.
      have hexact : (l.map fun band => B.part band a c) = l.map fun band => B.part band a b + B.part band b c :=
        List.map_congr_left fun band' h => B.part_add (hsub _ h) hab hbc (.inl (hb.trans (hlater _ h)))
      have hhead := B.part_le_add hband hab hbc
      rw [hexact]
      omega
    · have hhead := B.part_add hband hab hbc (.inr hb)
      have htail := ih hrest hsub
      omega

theorem span_le {bound : Nat} (hbound : ∀ band ∈ B.bands, ∀ x y, x ≤ y → y ≤ B.hi band → B.cost band x y ≤ bound)
    (hab : a ≤ b) : B.span a b ≤ B.bands.length * bound := by
  have hlength : (B.bands.map fun band => B.part band a b).length = B.bands.length := List.length_map _
  rw [span, ← hlength, ← smul_eq_mul]
  refine List.sum_le_card_nsmul _ _ ?_
  rintro _ hx
  obtain ⟨band, hband, rfl⟩ := List.mem_map.mp hx
  exact hbound band hband _ _ (B.clamp_mono hab) (B.clamp_le_hi hband)

theorem span_in_band (hband : band ∈ B.bands) (ha : B.lo band ≤ a) (hab : a ≤ b) (hb : b ≤ B.hi band) :
    B.span a b = B.cost band a b := by
  have hpart : B.part band a b = B.cost band a b := by
    have hclamp : ∀ x, B.lo band ≤ x → x ≤ B.hi band → B.clamp band x = x := by
      intro x hlo hhi
      unfold clamp
      omega
    rw [part, hclamp a ha (hab.trans hb), hclamp b (ha.trans hab) hb]
  obtain ⟨before, after, hsplit⟩ := List.append_of_mem hband
  have hordered := B.ordered
  rw [hsplit, List.pairwise_append, List.pairwise_cons] at hordered
  obtain ⟨-, ⟨hlater, -⟩, hearlier⟩ := hordered
  have hbefore : (before.map fun band => B.part band a b).sum = 0 := by
    refine List.sum_eq_zero ?_
    rintro _ hx
    obtain ⟨band', h', rfl⟩ := List.mem_map.mp hx
    exact B.part_above (hsplit ▸ List.mem_append_left _ h') hab
      ((hearlier _ h' _ List.mem_cons_self).trans ha)
  have hafter : (after.map fun band => B.part band a b).sum = 0 := by
    refine List.sum_eq_zero ?_
    rintro _ hx
    obtain ⟨band', h', rfl⟩ := List.mem_map.mp hx
    exact B.part_below hab (hb.trans (hlater _ h'))
  rw [span, hsplit, List.map_append, List.map_cons, List.sum_append, List.sum_cons, hbefore, hafter, hpart,
    Nat.zero_add, Nat.add_zero]

end Banded

end SovereignNetwork.Lib
