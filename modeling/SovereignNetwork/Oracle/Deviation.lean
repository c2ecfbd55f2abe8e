import SovereignNetwork.Oracle.Attestation

/-!
# The deviation band

The deviation of a price from the median of the recorded ones in exact integers, and where the check agrees with it.
-/

namespace SovereignNetwork.Oracle

open Lib

variable {values sorted : List Nat} {price median limit : Nat}

/-- The median of a sorted list, rounded down. -/
def lowerMedian (sorted : List Nat) : Nat :=
  if sorted.length % 2 = 1 then sorted.getD (sorted.length / 2) 0
  else (sorted.getD (sorted.length / 2 - 1) 0 + sorted.getD (sorted.length / 2) 0) / 2

/-- The deviation in basis points is above the limit, and every price deviates from zero. -/
def Deviates (price median limit : Nat) : Prop :=
  if median = 0 then price ≠ 0 else limit < (price - median : Int).natAbs * 10000 / median

instance : Decidable (Deviates price median limit) := inferInstanceAs (Decidable (ite _ _ _))

/-- The largest deviation from a median that the check can find. -/
def maxFoundBps (median : Nat) : Nat := min (u128Max / median) (2 ^ 32 - 1)

theorem calculateMedian_eq (hne : sorted ≠ []) (hperm : sorted.Perm values) (hsorted : sorted.Pairwise (· ≤ ·)) :
    calculateMedian values = lowerMedian sorted := by
  have hsort : values.insertionSort (· ≤ ·) = sorted :=
    List.Perm.eq_of_pairwise (fun a b _ _ => Nat.le_antisymm) (List.pairwise_insertionSort _ _) hsorted
      ((List.perm_insertionSort _ _).trans hperm.symm)
  unfold calculateMedian lowerMedian
  rw [hsort]
  dsimp only
  rw [if_neg (mt List.length_eq_zero_iff.mp hne)]
  split
  · rfl
  · omega

theorem deviationBps_gt_iff :
    limit < OracleState.deviationBps price median ↔ Deviates price median limit ∧ limit < maxFoundBps median := by
  unfold OracleState.deviationBps Deviates maxFoundBps
  rcases Nat.eq_zero_or_pos median with hzero | hpos
  · simp [hzero]
  · have hdiff : (if price > median then price - median else median - price) = (price - median : Int).natAbs := by
      split <;> omega
    rw [if_pos hpos, if_neg (Nat.pos_iff_ne_zero.mp hpos)]
    simp only [hdiff, saturatingMulU128, lt_min_iff, Nat.lt_div_iff_mul_lt hpos]
    omega

/-- The check rejects just the prices that deviate from the median, unless a price deviates and the limit is not below the
largest deviation that the check can find. -/
theorem checkDeviationBand_rejects_iff (s : OracleState) (attestation : OraclePriceAttestation)
    (epochState : OracleEpochState) (sorted : List Nat) (hne : sorted ≠ [])
    (hperm : sorted.Perm epochState.signerPrices.values) (hsorted : sorted.Pairwise (· ≤ ·)) :
    ((s.checkDeviationBand attestation epochState).isOk = false ↔
      Deviates attestation.sovUsdPrice (lowerMedian sorted) s.config.maxDeviationBps) ↔
    (Deviates attestation.sovUsdPrice (lowerMedian sorted) s.config.maxDeviationBps →
      s.config.maxDeviationBps < maxFoundBps (lowerMedian sorted)) := by
  have hvalues : epochState.signerPrices.values ≠ [] := fun hnil => hne (by rw [hnil] at hperm; exact hperm.eq_nil)
  have hrejects : (s.checkDeviationBand attestation epochState).isOk = false ↔
      s.config.maxDeviationBps < OracleState.deviationBps attestation.sovUsdPrice (lowerMedian sorted) := by
    rw [OracleState.checkDeviationBand, calculateMedian_eq hne hperm hsorted]
    split
    · next hgt => exact iff_of_true rfl hgt.2
    · next hle => exact iff_of_false (by simp [pure, Except.pure, Except.isOk, Except.toBool]) fun hgt => hle ⟨hvalues, hgt⟩
  rw [hrejects, deviationBps_gt_iff]
  tauto

/-! ## Lost deviations -/

def recordedPrice (price : Nat) : OracleEpochState := { signerPrices := AList.insert 1 price ∅ }

def attested (price : Nat) : OraclePriceAttestation := ⟨1, price, none, 0, 2, []⟩

theorem checkDeviationBand_six_percent :
    (({} : OracleState).checkDeviationBand (attested 106) (recordedPrice 100)).isOk = false :=
  ((checkDeviationBand_rejects_iff {} (attested 106) (recordedPrice 100) [100] (by decide) (by decide) (by decide)).mpr
    (by decide)).mpr (by decide)

/-- Any price passes beside a recorded zero, and almost twice the median where the product saturates. -/
theorem checkDeviationBand_accepts_deviating :
    ((({} : OracleState).checkDeviationBand (attested 1000) (recordedPrice 0)).isOk = true ∧
      Deviates 1000 (lowerMedian [0]) 500) ∧
    ((({} : OracleState).checkDeviationBand (attested (2 ^ 128 - 1)) (recordedPrice (2 ^ 127))).isOk = true ∧
      Deviates (2 ^ 128 - 1) (lowerMedian [2 ^ 127]) 500) := by
  decide

end SovereignNetwork.Oracle
