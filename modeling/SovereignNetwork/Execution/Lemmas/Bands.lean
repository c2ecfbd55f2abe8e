import SovereignNetwork.Execution.Curve
import SovereignNetwork.Lib.Banded
import SovereignNetwork.Lib.Except
import Mathlib.Tactic.Ring

/-!
# The cost of a span of supply
-/

namespace SovereignNetwork.Execution

open Lib

section

variable (band : BondingCurveBand) (sFrom sTo : Nat)

/-- What the slope of the band adds to the cost, times twice the denominators. -/
def bandRise : Nat := band.slopeNum * (sTo - band.startSupply + (sFrom - band.startSupply)) * (sTo - sFrom)

/-- What the first price of the band adds to the cost, times the scale. -/
def bandBase : Nat := band.pStart * (sTo - sFrom)

/-- The area under the price, with both of its terms rounded down. -/
def bandCost : Nat := bandRise band sFrom sTo / (2 * band.slopeDen * SCALE) + bandBase band sFrom sTo / SCALE

end

section

variable {band : BondingCurveBand} {x y z : Nat}

/-! ## Cuts -/

theorem bandRise_add (hx : band.startSupply ≤ x) (hxy : x ≤ y) (hyz : y ≤ z) :
    bandRise band x z = bandRise band x y + bandRise band y z := by
  obtain ⟨i, rfl⟩ := Nat.exists_eq_add_of_le hx
  obtain ⟨j, rfl⟩ := Nat.exists_eq_add_of_le hxy
  obtain ⟨k, rfl⟩ := Nat.exists_eq_add_of_le hyz
  have hy : band.startSupply + i + j - band.startSupply = i + j := by omega
  have hz : band.startSupply + i + j + k - band.startSupply = i + j + k := by omega
  have hxz : band.startSupply + i + j + k - (band.startSupply + i) = j + k := by omega
  simp only [bandRise, hy, hz, hxz, Nat.add_sub_cancel_left]
  ring

theorem bandBase_add (hxy : x ≤ y) (hyz : y ≤ z) : bandBase band x z = bandBase band x y + bandBase band y z := by
  rw [bandBase, bandBase, bandBase, ← Nat.mul_add]
  congr 1
  omega

theorem add_div_le (a b d : Nat) : (a + b) / d ≤ a / d + b / d + 1 := by
  rcases Nat.eq_zero_or_pos d with rfl | hd
  · simp
  · rw [Nat.add_div hd]
    split <;> omega

theorem bandCost_add_le (hx : band.startSupply ≤ x) (hxy : x ≤ y) (hyz : y ≤ z) :
    bandCost band x y + bandCost band y z ≤ bandCost band x z := by
  rw [bandCost, bandCost, bandCost, bandRise_add hx hxy hyz, bandBase_add hxy hyz, add_add_add_comm]
  exact Nat.add_le_add Nat.div_add_div_le_add_div Nat.div_add_div_le_add_div

theorem bandCost_le_add (hx : band.startSupply ≤ x) (hxy : x ≤ y) (hyz : y ≤ z) :
    bandCost band x z ≤ bandCost band x y + bandCost band y z + 2 := by
  rw [bandCost, bandCost, bandCost, bandRise_add hx hxy hyz, bandBase_add hxy hyz]
  have hrise := add_div_le (bandRise band x y) (bandRise band y z) (2 * band.slopeDen * SCALE)
  have hbase := add_div_le (bandBase band x y) (bandBase band y z) SCALE
  omega

end

def curveBands : Banded BondingCurveBand where
  bands := BANDS
  lo := (·.startSupply)
  hi := (·.endSupply)
  cost := bandCost
  defect := 2
  lo_le_hi := by decide
  ordered := by decide
  cost_self band x := by simp [bandCost, bandRise, bandBase]
  cost_add_le _ _ _ _ _ := bandCost_add_le
  cost_le_add _ _ _ _ _ := bandCost_le_add

def spanCost (sFrom sTo : Nat) : Nat := curveBands.span sFrom sTo

/-! ## The cost within a band -/

section

variable {band : BondingCurveBand} {x y : Nat}

theorem band_bounds : ∀ band ∈ BANDS, band.endSupply ≤ maxSupply ∧ band.slopeNum ≤ 5 ∧ band.slopeDen = slopeDen ∧
    band.pStart ≤ 10 ^ 16 := by
  decide

theorem bandRise_le (hband : band ∈ BANDS) (hxy : x ≤ y) (hy : y ≤ band.endSupply) :
    bandRise band x y ≤ 5 * (2 * maxSupply) * maxSupply := by
  obtain ⟨hend, hslope, -⟩ := band_bounds band hband
  refine Nat.mul_le_mul (Nat.mul_le_mul hslope ?_) ?_ <;> omega

theorem bandBase_le (hband : band ∈ BANDS) (hy : y ≤ band.endSupply) : bandBase band x y ≤ 10 ^ 16 * maxSupply := by
  obtain ⟨hend, -, -, hprice⟩ := band_bounds band hband
  refine Nat.mul_le_mul hprice ?_
  omega

theorem bandCost_le (hband : band ∈ BANDS) (hxy : x ≤ y) (hy : y ≤ band.endSupply) : bandCost band x y ≤ 2 * 10 ^ 27 := by
  have hrise := bandRise_le hband hxy hy
  have hbase := bandBase_le (x := x) hband hy
  rw [bandCost, (band_bounds band hband).2.2.1]
  simp only [maxSupply, slopeDen, SCALE] at *
  omega

theorem checkedMulU256_eq (h : x * y ≤ u256Max) : checkedMulU256 x y = .ok (x * y) := if_pos h

theorem checkedAddU256_eq (h : x + y ≤ u256Max) : checkedAddU256 x y = .ok (x + y) := if_pos h

theorem checkedSubU256_eq (h : y ≤ x) : checkedSubU256 x y = .ok (x - y) := if_pos h

theorem le_u256Max (h : x ≤ 10 ^ 60) : x ≤ u256Max := h.trans (by decide)

theorem costSingleBand_eq (hband : band ∈ BANDS) (hx : band.startSupply ≤ x) (hxy : x ≤ y) (hy : y ≤ band.endSupply) :
    costSingleBand x y band = .ok (bandCost band x y) := by
  have hrise := bandRise_le hband hxy hy
  have hbase := bandBase_le (x := x) hband hy
  have hcost := bandCost_le hband hxy hy
  obtain ⟨hend, hslope, hden, -⟩ := band_bounds band hband
  have hguard : ¬ (x > y ∨ x < band.startSupply ∨ y > band.endSupply) := by omega
  have hmax : maxSupply = 10 ^ 29 := by decide
  have hlocal : y - band.startSupply + (x - band.startSupply) ≤ 2 * 10 ^ 29 := by omega
  have hsum := le_u256Max (hlocal.trans (by decide))
  have hslopeSum := le_u256Max ((Nat.mul_le_mul hslope hlocal).trans (by decide))
  have hnumerator := le_u256Max (hrise.trans (by decide))
  have htwoDen : 2 * band.slopeDen ≤ u256Max := by
    rw [hden]
    decide
  have hdenominator : 2 * band.slopeDen * SCALE ≤ u256Max := by
    rw [hden]
    decide
  have hprice := le_u256Max (hbase.trans (by decide))
  have htotal := le_u256Max (hcost.trans (by decide))
  have hzero : ¬ (bandRise band x y ≠ 0 ∧ 2 * band.slopeDen * SCALE = 0) := by
    rw [hden]
    exact fun h => absurd h.2 (by decide)
  have hterm : (if bandRise band x y = 0 then 0 else bandRise band x y / (2 * band.slopeDen * SCALE)) =
      bandRise band x y / (2 * band.slopeDen * SCALE) := by
    split
    · next h => rw [h, Nat.zero_div]
    · rfl
  have hdowncast := hcost.trans (show 2 * 10 ^ 27 ≤ u128Max by decide)
  unfold bandRise at hnumerator hzero hterm
  unfold bandBase at hprice
  unfold bandCost bandRise bandBase at htotal hdowncast ⊢
  rw [costSingleBand, if_neg hguard]
  refine bind_eq_ok.mpr ⟨_, checkedSubU256_eq hx, bind_eq_ok.mpr ⟨_, checkedSubU256_eq (hx.trans hxy), ?_⟩⟩
  refine bind_eq_ok.mpr ⟨_, checkedSubU256_eq hxy, bind_eq_ok.mpr ⟨_, checkedAddU256_eq hsum, ?_⟩⟩
  refine bind_eq_ok.mpr ⟨_, checkedMulU256_eq hslopeSum, bind_eq_ok.mpr ⟨_, checkedMulU256_eq hnumerator, ?_⟩⟩
  refine bind_eq_ok.mpr ⟨_, checkedMulU256_eq htwoDen, bind_eq_ok.mpr ⟨_, checkedMulU256_eq hdenominator, ?_⟩⟩
  rw [if_neg hzero]
  refine bind_eq_ok.mpr ⟨_, checkedMulU256_eq hprice, ?_⟩
  rw [hterm]
  refine bind_eq_ok.mpr ⟨_, checkedAddU256_eq htotal, ?_⟩
  exact if_neg (Nat.not_lt.mpr hdowncast)

end

theorem spanCost_self (x : Nat) : spanCost x x = 0 := curveBands.span_self

theorem spanCost_in_band {band : BondingCurveBand} {x y : Nat} (hband : band ∈ BANDS) (hx : band.startSupply ≤ x)
    (hxy : x ≤ y) (hy : y ≤ band.endSupply) : spanCost x y = bandCost band x y := curveBands.span_in_band hband hx hxy hy

/-! ## The band of a supply -/

theorem bandForSupply_spec {s : Nat} {band : BondingCurveBand} (h : bandForSupply s = .ok band) :
    band ∈ BANDS ∧ band.startSupply ≤ s ∧ s ≤ band.endSupply := by
  unfold bandForSupply at h
  split at h
  · cases h
  split at h
  · next found hfound =>
    cases h
    have hprop := List.find?_some hfound
    refine ⟨List.mem_of_find?_eq_some hfound, ?_⟩
    split at hprop <;> simp only [Bool.and_eq_true, decide_eq_true_eq] at hprop <;> omega
  · cases h

theorem bandForRedemptionSupply_spec {s : Nat} (hs : 0 < s) (hmax : s ≤ maxSupply) :
    bandForRedemptionSupply s ∈ BANDS ∧ (bandForRedemptionSupply s).startSupply < s ∧
      s ≤ (bandForRedemptionSupply s).endSupply := by
  unfold bandForRedemptionSupply
  cases hfound : BANDS.find? _ with
  | none =>
    -- The bands cover every supply up to the largest.
    have hnone := List.find?_eq_none.mp hfound
    simp only [BANDS, List.mem_cons, List.not_mem_nil, or_false, forall_eq_or_imp, forall_eq, band0, band1, band2, band3,
      band4] at hnone
    simp at hnone
    omega
  | some band =>
    have hfirst : ∀ band ∈ BANDS, band.index = 0 → band.startSupply = 0 := by decide
    have hmem := List.mem_of_find?_eq_some hfound
    have hprop := List.find?_some hfound
    refine ⟨hmem, ?_⟩
    simp only [Option.getD_some]
    split at hprop
    · next hindex =>
      have := hfirst band hmem hindex
      simp only [Bool.and_eq_true, decide_eq_true_eq] at hprop
      omega
    · simpa using hprop

/-! ## Burns -/

theorem spanCost_last_band {band : BondingCurveBand} {floor current : Nat} (hband : band ∈ BANDS)
    (hfloor : floor ≤ current) (hstart : band.startSupply ≤ current) (hend : current ≤ band.endSupply) :
    spanCost floor current =
      spanCost floor (max floor band.startSupply) + bandCost band (max floor band.startSupply) current := by
  rcases Nat.le_total band.startSupply floor with hle | hle
  · rw [Nat.max_eq_left hle, spanCost_self, Nat.zero_add, spanCost_in_band hband hle hfloor hend]
  · rw [Nat.max_eq_right hle, ← spanCost_in_band hband le_rfl hstart hend]
    exact curveBands.span_add_of_boundary (curveBands.boundary_lo hband) hle hstart

theorem payoutLoop_eq {fuel remaining current total : Nat} (hfuel : remaining ≤ fuel) (hremaining : remaining ≤ current)
    (hcurrent : current ≤ maxSupply) (htotal : total + spanCost (current - remaining) current ≤ u128Max) :
    payoutLoop fuel remaining current total = .ok (total + spanCost (current - remaining) current) := by
  induction fuel generalizing remaining current total with
  | zero =>
    obtain rfl : remaining = 0 := Nat.le_zero.mp hfuel
    rw [Nat.sub_zero, spanCost_self]
    rfl
  | succ fuel ih =>
    rcases Nat.eq_zero_or_pos remaining with rfl | hpos
    · rw [Nat.sub_zero, spanCost_self]
      rfl
    obtain ⟨hband, hstart, hend⟩ := bandForRedemptionSupply_spec (hpos.trans_le hremaining) hcurrent
    have hsplit := spanCost_last_band hband (Nat.sub_le current remaining) hstart.le hend
    rw [payoutLoop, if_pos hpos]
    generalize bandForRedemptionSupply current = band at hband hstart hend hsplit ⊢
    refine bind_eq_ok.mpr ⟨_, checkedSubU256_eq hremaining, ?_⟩
    have hfloor : max (current - remaining) band.startSupply < current := by omega
    have hrest : current - remaining ≤ max (current - remaining) band.startSupply := le_max_left _ _
    have hbandFloor : band.startSupply ≤ max (current - remaining) band.startSupply := le_max_right _ _
    generalize max (current - remaining) band.startSupply = floor at *
    refine bind_eq_ok.mpr ⟨_, costSingleBand_eq hband hbandFloor hfloor.le hend, ?_⟩
    have hadd : checkedAddU128 total (bandCost band floor current) = some (total + bandCost band floor current) :=
      if_pos (by omega)
    rw [hadd]
    refine bind_eq_ok.mpr ⟨_, checkedSubU256_eq hfloor.le, bind_eq_ok.mpr ⟨_, checkedSubU256_eq (by omega), ?_⟩⟩
    have hsame : floor - (remaining - (current - floor)) = current - remaining := by omega
    rw [ih (by omega) (by omega) (by omega) (by rw [hsame]; omega), hsame]
    congr 1
    omega

theorem spanCost_le {x y : Nat} (hxy : x ≤ y) : spanCost x y ≤ 10 ^ 28 :=
  curveBands.span_le (fun _ hband _ _ => bandCost_le hband) hxy

theorem payoutForBurn_eq {amountCbe sC : Nat} (hamount : amountCbe ≤ sC) (hsupply : sC ≤ maxSupply) :
    payoutForBurn amountCbe sC = .ok (spanCost (sC - amountCbe) sC) := by
  rw [payoutForBurn, if_neg (Nat.not_lt.mpr hamount), payoutLoop_eq le_rfl hamount hsupply, Nat.zero_add]
  rw [Nat.zero_add]
  exact (spanCost_le (Nat.sub_le _ _)).trans (by decide)

/-! ## Mints -/

theorem wrapU128_of_le_maxSupply {x : Nat} (h : x ≤ maxSupply) : wrapU128 x = x := Nat.mod_eq_of_lt (h.trans_lt (by decide))

theorem mintSearch_spec {remaining current fuel low high deltaS : Nat} {band : BondingCurveBand} (hband : band ∈ BANDS)
    (hcurrent : band.startSupply ≤ current) (hhigh : current + high ≤ band.endSupply) (hle : low ≤ high)
    (hlow : bandCost band current (current + low) ≤ remaining)
    (h : mintSearch remaining current band fuel low high = .ok deltaS) :
    current + deltaS ≤ band.endSupply ∧ bandCost band current (current + deltaS) ≤ remaining := by
  induction fuel generalizing low high with
  | zero =>
    cases h
    exact ⟨by omega, hlow⟩
  | succ fuel ih =>
    rw [mintSearch] at h
    split at h
    · next hlt =>
      have hmax := (band_bounds band hband).1
      split at h
      · cases h
      obtain ⟨midCost, hmid, h⟩ := bind_eq_ok.mp h
      rw [wrapU128_of_le_maxSupply (by omega), costSingleBand_eq hband hcurrent (by omega) (by omega)] at hmid
      cases hmid
      split at h
      · next hcovered => exact ih hhigh (by omega) hcovered h
      · exact ih (by omega) (by omega) hlow h
    · cases h
      exact ⟨by omega, hlow⟩

/-- The loop has minted a span from `current` on, for no more than the cost. -/
def MintsSpan (remaining current minted total : Nat) : Prop :=
  ∃ deltaS, total = minted + deltaS ∧ current + deltaS ≤ maxSupply ∧ spanCost current (current + deltaS) ≤ remaining

theorem mintsSpan_nothing {remaining current minted : Nat} (hcurrent : current ≤ maxSupply) :
    MintsSpan remaining current minted minted :=
  ⟨0, rfl, hcurrent, (spanCost_self current).le.trans (Nat.zero_le _)⟩

theorem mintLoop_spec {fuel remaining current minted total : Nat} (hcurrent : current ≤ maxSupply)
    (h : mintLoop fuel remaining current minted = .ok total) : MintsSpan remaining current minted total := by
  induction fuel generalizing remaining current minted with
  | zero =>
    cases h
    exact mintsSpan_nothing hcurrent
  | succ fuel ih =>
    rw [mintLoop] at h
    split at h
    swap
    · cases h
      exact mintsSpan_nothing hcurrent
    obtain ⟨band, hfound, h⟩ := bind_eq_ok.mp h
    obtain ⟨hband, hstart, hend⟩ := bandForSupply_spec hfound
    have hmax := (band_bounds band hband).1
    obtain ⟨capacity, hcapacity, h⟩ := bind_eq_ok.mp h
    rw [checkedSubU256_eq hend] at hcapacity
    cases hcapacity
    split at h
    · cases h
      exact mintsSpan_nothing hcurrent
    obtain ⟨fullBandCost, hfull, h⟩ := bind_eq_ok.mp h
    rw [costSingleBand_eq hband hstart hend le_rfl] at hfull
    cases hfull
    split at h
    · -- The reserve pays for the rest of the band, and the loop goes on from its end.
      next hcovered =>
      unfold checkedAddU128 at h
      split at h
      swap
      · cases h
      next minted' hminted =>
      split at hminted <;> cases hminted
      obtain ⟨deltaS, rfl, htop, hcost⟩ := ih hmax h
      refine ⟨band.endSupply - current + deltaS, by omega, by omega, ?_⟩
      have hto : current + (band.endSupply - current + deltaS) = band.endSupply + deltaS := by omega
      have hcut : spanCost current (band.endSupply + deltaS) =
          spanCost current band.endSupply + spanCost band.endSupply (band.endSupply + deltaS) :=
        curveBands.span_add_of_boundary (curveBands.boundary_hi hband) hend (Nat.le_add_right _ _)
      rw [hto, hcut, spanCost_in_band hband hstart hend le_rfl]
      omega
    · obtain ⟨inverse, -, h⟩ := bind_eq_ok.mp h
      obtain ⟨estimateCost, -, h⟩ := bind_eq_ok.mp h
      obtain ⟨deltaS, hsearch, h⟩ := bind_eq_ok.mp h
      have hzero : bandCost band current (current + 0) ≤ remaining := by simp [bandCost, bandRise, bandBase]
      have hhigh : current + (if estimateCost ≤ remaining then band.endSupply - current
          else min inverse (band.endSupply - current)) ≤ band.endSupply := by
        split <;> omega
      obtain ⟨htop, hcost⟩ := mintSearch_spec hband hstart hhigh (Nat.zero_le _) hzero hsearch
      unfold checkedAddU128 at h
      split at h
      · next minted' hminted =>
        split at hminted <;> cases hminted
        cases h
        refine ⟨deltaS, rfl, by omega, ?_⟩
        rwa [spanCost_in_band hband hstart (Nat.le_add_right _ _) htop]
      · cases h

theorem mintWithReserve_spec {reserveCredit sC deltaS : Nat} (h : mintWithReserve reserveCredit sC = .ok deltaS) :
    sC + deltaS ≤ maxSupply ∧ spanCost sC (sC + deltaS) ≤ reserveCredit := by
  unfold mintWithReserve at h
  split at h
  · cases h
  · next hsupply =>
    obtain ⟨deltaS', hdelta, htop, hcost⟩ := mintLoop_spec (Nat.not_lt.mp hsupply) h
    obtain rfl : deltaS = deltaS' := by omega
    exact ⟨htop, hcost⟩

end SovereignNetwork.Execution
