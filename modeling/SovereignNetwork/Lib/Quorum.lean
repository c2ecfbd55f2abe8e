import Mathlib.Data.Finset.Card
import Mathlib.Tactic.Ring

/-!
# Quorums

`k` of `n` voters meet the ratio `num / den`.
-/

namespace SovereignNetwork.Lib

/-- `k / n ≥ num / den`, written without division; no quorum exists in an empty set. -/
def MeetsRatio (num den k n : ℕ) : Prop := n ≠ 0 ∧ n * num ≤ k * den

theorem MeetsRatio.mono {num den k k' n : ℕ} (h : MeetsRatio num den k n) (hk : k ≤ k') : MeetsRatio num den k' n :=
  ⟨h.1, h.2.trans (Nat.mul_le_mul_right den hk)⟩

section Intersection

variable {V : Type} [DecidableEq V] {num den : ℕ} {U A B F : Finset V}

theorem card_add_card_le_card_inter_add (hA : A ⊆ U) (hB : B ⊆ U) : A.card + B.card ≤ (A ∩ B).card + U.card := by
  have hunion := Finset.card_union_add_card_inter A B
  have hle := Finset.card_le_card (Finset.union_subset hA hB)
  omega

theorem MeetsRatio.card_lt_three_mul_inter (hr : 2 * den < 3 * num) (hA : A ⊆ U) (hB : B ⊆ U)
    (hqA : MeetsRatio num den A.card U.card) (hqB : MeetsRatio num den B.card U.card) :
    U.card < 3 * (A ∩ B).card := by
  have hsum := card_add_card_le_card_inter_add hA hB
  have hpos : 0 < U.card := Nat.pos_of_ne_zero hqA.1
  by_contra hcon
  have hcon : 3 * (A ∩ B).card ≤ U.card := Nat.le_of_not_lt hcon
  have hAB : 3 * (A.card + B.card) ≤ 4 * U.card := by omega
  have hlt : 2 * U.card * (2 * den) < 2 * U.card * (3 * num) := Nat.mul_lt_mul_of_pos_left hr (by omega)
  have hle : 2 * U.card * (3 * num) ≤ 2 * U.card * (2 * den) := calc
    2 * U.card * (3 * num) = 3 * (U.card * num + U.card * num) := by ring
    _ ≤ 3 * (A.card * den + B.card * den) := Nat.mul_le_mul_left 3 (Nat.add_le_add hqA.2 hqB.2)
    _ = 3 * (A.card + B.card) * den := by ring
    _ ≤ 4 * U.card * den := Nat.mul_le_mul_right den hAB
    _ = 2 * U.card * (2 * den) := by ring
  exact absurd hlt (Nat.not_lt.mpr hle)

theorem MeetsRatio.exists_mem_inter (hr : 2 * den < 3 * num) (hA : A ⊆ U) (hB : B ⊆ U)
    (hqA : MeetsRatio num den A.card U.card) (hqB : MeetsRatio num den B.card U.card)
    (hF : 3 * F.card < U.card) : ∃ v, v ∈ A ∧ v ∈ B ∧ v ∉ F := by
  have hlt := MeetsRatio.card_lt_three_mul_inter hr hA hB hqA hqB
  obtain ⟨v, hv, hvF⟩ := Finset.exists_mem_notMem_of_card_lt_card (show F.card < (A ∩ B).card by omega)
  exact ⟨v, (Finset.mem_inter.mp hv).1, (Finset.mem_inter.mp hv).2, hvF⟩

end Intersection

end SovereignNetwork.Lib
