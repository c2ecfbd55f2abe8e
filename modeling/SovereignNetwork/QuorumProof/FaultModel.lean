import SovereignNetwork.QuorumProof.Types

/-!
# Quorums and the fault bound

`fault_model.rs` derives its quorum from the number of faulty validators that it tolerates, `has_supermajority` from the
number of all validators.
-/

namespace SovereignNetwork

open Lib

def maxByzantine (n : Nat) : Nat := if n = 0 then 0 else (n - 1) / 3

def safetyQuorum (n : Nat) : Nat := 2 * maxByzantine n + 1

/-- The fields of `ConsensusState` that the quorum check reads. -/
structure ConsensusState where
  votesReceived : Nat
  totalValidators : Nat

def ConsensusState.checkQuorumSatisfied (s : ConsensusState) : Bool :=
  decide (s.votesReceived ≥ safetyQuorum s.totalValidators)

theorem three_mul_maxByzantine_lt {n : Nat} (hn : n ≠ 0) : 3 * maxByzantine n < n := by
  rw [maxByzantine, if_neg hn]
  omega

theorem three_mul_maxByzantine_of_mod {n : Nat} (hn : n % 3 = 1) : 3 * maxByzantine n + 1 = n := by
  rw [maxByzantine, if_neg (by omega)]
  omega

section

variable {V : Type} [DecidableEq V] {U A B : Finset V}

theorem maxByzantine_lt_inter_of_supermajority (hA : A ⊆ U) (hB : B ⊆ U)
    (hqA : hasSupermajority A.card U.card = true) (hqB : hasSupermajority B.card U.card = true) :
    maxByzantine U.card < (A ∩ B).card := by
  have hratio := hasSupermajority_iff.mp hqA
  have hlt := hratio.card_lt_three_mul_inter bftSupermajorityBps_gt hA hB (hasSupermajority_iff.mp hqB)
  have hfault := three_mul_maxByzantine_lt hratio.1
  omega

theorem maxByzantine_lt_inter_of_safetyQuorum (hmod : U.card % 3 = 1) (hA : A ⊆ U) (hB : B ⊆ U)
    (hqA : safetyQuorum U.card ≤ A.card) (hqB : safetyQuorum U.card ≤ B.card) :
    maxByzantine U.card < (A ∩ B).card := by
  have hsum := card_add_card_le_card_inter_add hA hB
  have hfault := three_mul_maxByzantine_of_mod hmod
  unfold safetyQuorum at hqA hqB
  omega

/-- Any other number of validators leaves `f + 1` of them outside of a quorum of `2 * f + 1`, which make another one with
`f` of its members. -/
theorem exists_safetyQuorums_sharing_maxByzantine (hU : U.Nonempty) (hmod : U.card % 3 ≠ 1) :
    ∃ A ⊆ U, ∃ B ⊆ U, A.card = safetyQuorum U.card ∧ B.card = safetyQuorum U.card ∧
      (A ∩ B).card = maxByzantine U.card := by
  have hpos := hU.card_pos
  have hfault : 3 * maxByzantine U.card + 2 ≤ U.card := by
    rw [maxByzantine, if_neg hpos.ne']
    omega
  obtain ⟨A, hA, hcardA⟩ := Finset.exists_subset_card_eq (show safetyQuorum U.card ≤ U.card by unfold safetyQuorum; omega)
  have hrest : maxByzantine U.card + 1 ≤ (U \ A).card := by
    rw [Finset.card_sdiff_of_subset hA, hcardA, safetyQuorum]
    omega
  obtain ⟨C, hC, hcardC⟩ := Finset.exists_subset_card_eq hrest
  obtain ⟨D, hD, hcardD⟩ := Finset.exists_subset_card_eq (show maxByzantine U.card ≤ A.card by
    rw [hcardA, safetyQuorum]; omega)
  have hAC : Disjoint A C := Finset.disjoint_sdiff.mono_right hC
  refine ⟨A, hA, C ∪ D, Finset.union_subset (hC.trans Finset.sdiff_subset) (hD.trans hA), hcardA, ?_, ?_⟩
  · rw [Finset.card_union_of_disjoint (hAC.mono_left hD).symm, hcardC, hcardD, safetyQuorum]
    omega
  · rw [Finset.inter_union_distrib_left, Finset.disjoint_iff_inter_eq_empty.mp hAC, Finset.empty_union,
      Finset.inter_eq_right.mpr hD, hcardD]

end

/-- Two supermajorities share more validators than can be faulty. Two quorums of the fault model always do just where the
number of validators is one more than a multiple of three. -/
theorem quorums_share_more_than_faulty {V : Type} [DecidableEq V] (U : Finset V) (hU : U.Nonempty) :
    (∀ A ⊆ U, ∀ B ⊆ U, hasSupermajority A.card U.card = true → hasSupermajority B.card U.card = true →
      maxByzantine U.card < (A ∩ B).card) ∧
    ((∀ A ⊆ U, ∀ B ⊆ U, (ConsensusState.mk A.card U.card).checkQuorumSatisfied = true →
      (ConsensusState.mk B.card U.card).checkQuorumSatisfied = true → maxByzantine U.card < (A ∩ B).card) ↔
      U.card % 3 = 1) := by
  refine ⟨fun A hA B hB => maxByzantine_lt_inter_of_supermajority hA hB, fun h => ?_, fun hmod A hA B hB hqA hqB => ?_⟩
  · by_contra hmod
    obtain ⟨A, hA, B, hB, hqA, hqB, hshared⟩ := exists_safetyQuorums_sharing_maxByzantine hU hmod
    exact (h A hA B hB (decide_eq_true hqA.ge) (decide_eq_true hqB.ge)).ne' hshared
  · exact maxByzantine_lt_inter_of_safetyQuorum hmod hA hB (of_decide_eq_true hqA) (of_decide_eq_true hqB)

theorem quorums_of_four_share_two :
    maxByzantine 4 < (({0, 1, 2} : Finset Nat) ∩ {1, 2, 3}).card :=
  (quorums_share_more_than_faulty (Finset.range 4) (by decide)).2.mpr (by decide) {0, 1, 2} (by decide) {1, 2, 3}
    (by decide) (by decide) (by decide)

/-- Of five validators, one of which can be faulty, two quorums of three share one only. -/
theorem quorums_of_five_share_one :
    ({0, 1, 2} : Finset Nat) ⊆ Finset.range 5 ∧ ({2, 3, 4} : Finset Nat) ⊆ Finset.range 5 ∧
      (ConsensusState.mk ({0, 1, 2} : Finset Nat).card 5).checkQuorumSatisfied = true ∧
      (ConsensusState.mk ({2, 3, 4} : Finset Nat).card 5).checkQuorumSatisfied = true ∧
      (({0, 1, 2} : Finset Nat) ∩ {2, 3, 4}).card = maxByzantine 5 := by
  decide

end SovereignNetwork
