import Mathlib.Data.List.Induction
import SovereignNetwork.BondingCurve.Token
import SovereignNetwork.Lib.Run

/-!
# Graduation at a value in USD

The threshold is watched by checks that are given a price each. The first check that finds it met stores its block and
its price, and a check that finds it unmet clears them.
-/

namespace SovereignNetwork.BondingCurve

open Lib
open Execution (PublicKey)

/-! ## Histories -/

structure OracleCheck where
  sovUsdPrice : Nat
  priceTimestamp : Nat
  block : Nat
  timestamp : Nat

inductive CurveCall
  | buy (buyer : PublicKey) (stableAmount block timestamp : Nat)
  | sell (seller : PublicKey) (tokenAmount block timestamp : Nat)
  | check (c : OracleCheck)

namespace BondingCurveToken

def check (token : BondingCurveToken) (c : OracleCheck) : Bool × BondingCurveToken :=
  token.checkGraduationWithOracle c.sovUsdPrice c.priceTimestamp c.block c.timestamp

def next (token : BondingCurveToken) : CurveCall → BondingCurveToken
  | .buy buyer amount block timestamp => (token.buy buyer amount block timestamp).2
  | .sell seller amount block timestamp => (token.sell seller amount block timestamp).2
  | .check c => (token.check c).2

end BondingCurveToken

def OracleCheck.Fresh (c : OracleCheck) (timestamp : Nat) : Prop :=
  timestamp - c.priceTimestamp ≤ maxOraclePriceAgeSeconds

/-- The reserve is worth the threshold at the price, and the product does not overflow. -/
def MeetsUsd (usd reserve price : Nat) : Prop :=
  reserve * price ≤ u128Max ∧ usd ≤ reserve * price / (tokenScale * usdPriceScale)

/-- A check at a fresh price that does not find the threshold met. -/
def Unmet (usd : Nat) (token : BondingCurveToken) : CurveCall → Prop
  | .check c => c.Fresh c.timestamp ∧ ¬ MeetsUsd usd token.reserveBalance c.sovUsdPrice
  | _ => False

namespace BondingCurveToken

/-! ## What is stored -/

structure Stores (token : BondingCurveToken) (c : OracleCheck) : Prop where
  block : token.graduationPendingSinceBlock = some c.block
  price : token.lastOraclePrice = some c.sovUsdPrice
  timestamp : token.lastOraclePriceTimestamp = some c.priceTimestamp

structure Idle (token : BondingCurveToken) : Prop where
  block : token.graduationPendingSinceBlock = none
  price : token.lastOraclePrice = none
  timestamp : token.lastOraclePriceTimestamp = none

structure OnCurve (usd confirmation : Nat) (token : BondingCurveToken) : Prop where
  phase : token.phase = .curve
  threshold : token.threshold = .reserveValueUsd usd maxOraclePriceAgeSeconds confirmation

/-- The token differs in its balances only. -/
structure SameTracking (token token' : BondingCurveToken) : Prop where
  phase : token'.phase = token.phase
  threshold : token'.threshold = token.threshold
  block : token'.graduationPendingSinceBlock = token.graduationPendingSinceBlock
  price : token'.lastOraclePrice = token.lastOraclePrice
  timestamp : token'.lastOraclePriceTimestamp = token.lastOraclePriceTimestamp

section

variable {usd confirmation : Nat} {token token' : BondingCurveToken} {c : OracleCheck}

theorem OnCurve.same (h : OnCurve usd confirmation token) (hs : SameTracking token token') :
    OnCurve usd confirmation token' :=
  ⟨hs.phase.trans h.phase, hs.threshold.trans h.threshold⟩

theorem Stores.same (h : Stores token c) (hs : SameTracking token token') : Stores token' c :=
  ⟨hs.block.trans h.block, hs.price.trans h.price, hs.timestamp.trans h.timestamp⟩

theorem Idle.same (h : Idle token) (hs : SameTracking token token') : Idle token' :=
  ⟨hs.block.trans h.block, hs.price.trans h.price, hs.timestamp.trans h.timestamp⟩

theorem sameTracking_buy (token : BondingCurveToken) (buyer : PublicKey) (amount block timestamp : Nat) :
    SameTracking token (token.buy buyer amount block timestamp).2 := by
  unfold buy
  dsimp only
  repeat' split
  all_goals exact ⟨rfl, rfl, rfl, rfl, rfl⟩

theorem sameTracking_sell (token : BondingCurveToken) (seller : PublicKey) (amount block timestamp : Nat) :
    SameTracking token (token.sell seller amount block timestamp).2 := by
  unfold sell
  dsimp only
  repeat' split
  all_goals exact ⟨rfl, rfl, rfl, rfl, rfl⟩

theorem isMetWithOracle_iff {maxAge reserve price age : Nat} :
    (Threshold.reserveValueUsd usd maxAge confirmation).isMetWithOracle reserve price age 0 = true ↔
      age ≤ maxAge ∧ MeetsUsd usd reserve price := by
  simp only [Threshold.isMetWithOracle, checkedMulU128, MeetsUsd]
  by_cases hage : age ≤ maxAge
  · by_cases hfits : reserve * price ≤ u128Max
    · simp [hage, hfits, Nat.not_lt.mpr hage]
    · simp [hage, hfits]
  · simp [hage, Nat.lt_of_not_le hage]

/-! ### Checks -/

def cleared (token : BondingCurveToken) : BondingCurveToken :=
  { token with
    graduationPendingSinceBlock := none
    lastOraclePrice := none
    lastOraclePriceTimestamp := none }

def storing (token : BondingCurveToken) (c : OracleCheck) : BondingCurveToken :=
  { token with
    graduationPendingSinceBlock := some c.block
    lastOraclePrice := some c.sovUsdPrice
    lastOraclePriceTimestamp := some c.priceTimestamp }

theorem check_eq (h : OnCurve usd confirmation token) (c : OracleCheck) :
    token.check c =
      if c.timestamp - c.priceTimestamp > maxOraclePriceAgeSeconds then (false, token)
      else if ¬ token.threshold.isMetWithOracle token.reserveBalance c.sovUsdPrice (c.timestamp - c.priceTimestamp) 0 then
        (false, token.cleared)
      else
        let token := if token.graduationPendingSinceBlock.isNone then token.storing c else token
        (decide (confirmation ≤ c.block - token.graduationPendingSinceBlock.getD c.block), token) := by
  unfold check checkGraduationWithOracle
  rw [if_neg (not_not.mpr h.phase)]
  split
  · next hthreshold =>
    rw [h.threshold] at hthreshold
    cases hthreshold
    rfl
  · next hother => exact absurd h.threshold (hother _ _ _)

theorem isMet_iff (h : OnCurve usd confirmation token) {price age : Nat} :
    token.threshold.isMetWithOracle token.reserveBalance price age 0 = true ↔
      age ≤ maxOraclePriceAgeSeconds ∧ MeetsUsd usd token.reserveBalance price := by
  rw [h.threshold]
  exact isMetWithOracle_iff

theorem check_of_stale (h : OnCurve usd confirmation token) (hstale : ¬ c.Fresh c.timestamp) :
    token.check c = (false, token) := by
  rw [check_eq h, if_pos (Nat.lt_of_not_le hstale)]

theorem check_of_unmet (h : OnCurve usd confirmation token) (hfresh : c.Fresh c.timestamp)
    (hunmet : ¬ MeetsUsd usd token.reserveBalance c.sovUsdPrice) : token.check c = (false, token.cleared) := by
  rw [check_eq h, if_neg (Nat.not_lt.mpr hfresh), if_pos fun hmet => hunmet ((isMet_iff h).mp hmet).2]

theorem check_of_met (h : OnCurve usd confirmation token) (hfresh : c.Fresh c.timestamp)
    (hmet : MeetsUsd usd token.reserveBalance c.sovUsdPrice) :
    token.check c =
      let token := if token.graduationPendingSinceBlock.isNone then token.storing c else token
      (decide (confirmation ≤ c.block - token.graduationPendingSinceBlock.getD c.block), token) := by
  rw [check_eq h, if_neg (Nat.not_lt.mpr hfresh), if_neg (not_not.mpr ((isMet_iff h).mpr ⟨hfresh, hmet⟩))]

theorem check_eq_true (h : OnCurve usd confirmation token) (htrue : (token.check c).1 = true) :
    ∃ block, (token.check c).2.graduationPendingSinceBlock = some block ∧ confirmation ≤ c.block - block := by
  rw [check_eq h] at htrue ⊢
  split at htrue
  · cases htrue
  · next hfresh =>
    split at htrue
    · cases htrue
    · next hmet =>
      rw [if_neg hfresh, if_neg hmet]
      cases hblock : token.graduationPendingSinceBlock with
      | none =>
        simp only [hblock, Option.isNone_none, if_true] at htrue ⊢
        exact ⟨_, rfl, of_decide_eq_true htrue⟩
      | some block =>
        simp only [hblock, Option.isNone_some, Bool.false_eq_true, if_false, Option.getD_some] at htrue ⊢
        exact ⟨_, rfl, of_decide_eq_true htrue⟩

/-! ### Graduation -/

theorem graduate_isOk (token : BondingCurveToken) (timestamp block : Nat) :
    (token.graduate timestamp block).isOk = token.canGraduate timestamp block := by
  unfold graduate
  cases token.canGraduate timestamp block <;> rfl

theorem canGraduate_eq (h : OnCurve usd confirmation token) (timestamp block : Nat) :
    token.canGraduate timestamp block =
      match token.lastOraclePrice, token.lastOraclePriceTimestamp with
      | some price, some priceTs =>
        if timestamp - priceTs > maxOraclePriceAgeSeconds then false
        else if ¬ token.threshold.isMetWithOracle token.reserveBalance price 0 0 then false
        else
          match token.graduationPendingSinceBlock with
          | some pendingSince => block - pendingSince ≥ confirmation
          | none => false
      | _, _ => false := by
  unfold canGraduate
  rw [if_neg (not_not.mpr h.phase)]
  split
  · next hthreshold =>
    rw [h.threshold] at hthreshold
    cases hthreshold
    rfl
  · next hother => exact absurd h.threshold (hother _ _ _)

theorem canGraduate_of_idle (h : OnCurve usd confirmation token) (hidle : Idle token) (timestamp block : Nat) :
    token.canGraduate timestamp block = false := by
  rw [canGraduate_eq h, hidle.price]

theorem canGraduate_iff (h : OnCurve usd confirmation token) (hstores : Stores token c) {timestamp block : Nat} :
    token.canGraduate timestamp block = true ↔
      c.Fresh timestamp ∧ MeetsUsd usd token.reserveBalance c.sovUsdPrice ∧ confirmation ≤ block - c.block := by
  rw [canGraduate_eq h, hstores.price, hstores.timestamp, hstores.block]
  dsimp only
  split
  · next hstale => exact ⟨nofun, fun h => absurd h.1 (Nat.not_le.mpr hstale)⟩
  · next hfresh =>
    split
    · next hunmet => exact ⟨nofun, fun hg => absurd ((isMet_iff h).mpr ⟨Nat.zero_le _, hg.2.1⟩) hunmet⟩
    · next hmet =>
      rw [decide_eq_true_iff]
      exact ⟨fun hblocks => ⟨Nat.not_lt.mp hfresh, ((isMet_iff h).mp (not_not.mp hmet)).2, hblocks⟩, fun hg => hg.2.2⟩

end

/-! ## Runs -/

section

variable (usd : Nat) (start : BondingCurveToken)

/-- The threshold was first seen met by the check, before the history or in it, with no unmet check since. -/
inductive MetSince : List CurveCall → OracleCheck → Prop
  | before {c} (h : Stores start c) : MetSince [] c
  | seen {history c} (hfirst : (run next start history).graduationPendingSinceBlock = none)
      (hfresh : c.Fresh c.timestamp) (hmet : MeetsUsd usd (run next start history).reserveBalance c.sovUsdPrice) :
      MetSince (history ++ [.check c]) c
  | still {history c call} (h : MetSince history c) (hcall : ¬ Unmet usd (run next start history) call) :
      MetSince (history ++ [call]) c

/-- What a history leaves stored is the check that first found the threshold met. -/
inductive Tracked (history : List CurveCall) : Prop
  | idle (h : Idle (run next start history))
  | stores {c} (h : Stores (run next start history) c) (hsince : MetSince usd start history c)

end

section

variable {usd confirmation : Nat} {start : BondingCurveToken} {history : List CurveCall}

theorem run_snoc (call : CurveCall) : run next start (history ++ [call]) = (run next start history).next call := by
  rw [run_append, run_cons, run_nil]

theorem Tracked.same {call : CurveCall} (h : Tracked usd start history)
    (hs : SameTracking (run next start history) ((run next start history).next call))
    (hcall : ¬ Unmet usd (run next start history) call) : Tracked usd start (history ++ [call]) := by
  rw [← run_snoc] at hs
  cases h with
  | idle hidle => exact .idle (hidle.same hs)
  | stores hstores hsince => exact .stores (hstores.same hs) (hsince.still hcall)

theorem OnCurve.called {token : BondingCurveToken} (h : OnCurve usd confirmation token) (call : CurveCall) :
    OnCurve usd confirmation (token.next call) := by
  cases call with
  | buy buyer amount block timestamp => exact h.same (sameTracking_buy ..)
  | sell seller amount block timestamp => exact h.same (sameTracking_sell ..)
  | check c =>
    have hcheck := check_eq h c
    simp only [BondingCurveToken.next, hcheck]
    repeat' split
    all_goals exact ⟨h.phase, h.threshold⟩

theorem Tracked.called (h : Tracked usd start history) (hcurve : OnCurve usd confirmation (run next start history))
    (call : CurveCall) : Tracked usd start (history ++ [call]) := by
  cases call with
  | buy buyer amount block timestamp => exact h.same (sameTracking_buy ..) id
  | sell seller amount block timestamp => exact h.same (sameTracking_sell ..) id
  | check c =>
    have hnext : run next start (history ++ [.check c]) = ((run next start history).check c).2 := run_snoc _
    by_cases hfresh : c.Fresh c.timestamp
    · by_cases hmet : MeetsUsd usd (run next start history).reserveBalance c.sovUsdPrice
      · rw [check_of_met hcurve hfresh hmet] at hnext
        cases h with
        | idle hidle =>
          rw [hidle.block] at hnext
          exact .stores (hnext ▸ ⟨rfl, rfl, rfl⟩) (.seen hidle.block hfresh hmet)
        | stores hstores hsince =>
          rw [hstores.block] at hnext
          exact .stores (hnext ▸ hstores) (hsince.still fun hunmet => hunmet.2 hmet)
      · rw [check_of_unmet hcurve hfresh hmet] at hnext
        exact .idle (hnext ▸ ⟨rfl, rfl, rfl⟩)
    · rw [check_of_stale hcurve hfresh] at hnext
      cases h with
      | idle hidle => exact .idle (hnext ▸ hidle)
      | stores hstores hsince => exact .stores (hnext ▸ hstores) (hsince.still fun hunmet => hfresh hunmet.1)

/-- The induction is on the history from its end. -/
theorem tracked_run (hcurve : OnCurve usd confirmation start) (hstart : Tracked usd start []) (history : List CurveCall) :
    OnCurve usd confirmation (run next start history) ∧ Tracked usd start history := by
  induction history using List.reverseRecOn with
  | nil => exact ⟨hcurve, hstart⟩
  | append_singleton history call ih =>
    refine ⟨?_, ih.2.called ih.1 call⟩
    rw [run_snoc]
    exact ih.1.called call

/-- After a check that returns true, graduation succeeds exactly when the price stored when the threshold was first seen met
is fresh and the reserve is worth the threshold at it. A graduation that succeeds has such a price, and its blocks. -/
theorem graduate_after_check (hcurve : OnCurve usd confirmation start)
    (hstart : Idle start ∨ ∃ c, Stores start c) (history : List CurveCall) :
    (∀ call : OracleCheck, call.Fresh call.timestamp → ((run next start history).check call).1 = true →
      ∃ c, MetSince usd start (history ++ [.check call]) c ∧
        ((((run next start history).check call).2.graduate call.timestamp call.block).isOk = true ↔
          c.Fresh call.timestamp ∧ MeetsUsd usd ((run next start history).check call).2.reserveBalance c.sovUsdPrice)) ∧
    ∀ timestamp block, ((run next start history).graduate timestamp block).isOk = true →
      ∃ c, MetSince usd start history c ∧ c.Fresh timestamp ∧
        usd ≤ (run next start history).reserveBalance * c.sovUsdPrice / (tokenScale * usdPriceScale) ∧
        confirmation ≤ block - c.block := by
  have htracked : Tracked usd start [] := by
    rcases hstart with hidle | ⟨c, hstores⟩
    · exact .idle hidle
    · exact .stores hstores (.before hstores)
  constructor
  · intro call _ htrue
    obtain ⟨block, hblock, hconfirmed⟩ := check_eq_true (tracked_run hcurve htracked history).1 htrue
    obtain ⟨hnext, hcalled⟩ := tracked_run hcurve htracked (history ++ [.check call])
    have hrun : run next start (history ++ [.check call]) = ((run next start history).check call).2 := run_snoc _
    rw [← hrun] at hblock ⊢
    cases hcalled with
    | idle hidle => exact absurd (hidle.block.symm.trans hblock) nofun
    | @stores c hstores hsince =>
      obtain rfl : c.block = block := Option.some.inj (hstores.block.symm.trans hblock)
      refine ⟨c, hsince, ?_⟩
      rw [graduate_isOk, canGraduate_iff hnext hstores]
      exact ⟨fun h => ⟨h.1, h.2.1⟩, fun h => ⟨h.1, h.2, hconfirmed⟩⟩
  · intro timestamp block hok
    rw [graduate_isOk] at hok
    obtain ⟨hnow, hhistory⟩ := tracked_run hcurve htracked history
    cases hhistory with
    | idle hidle => exact absurd hok (by rw [canGraduate_of_idle hnow hidle]; nofun)
    | @stores c hstores hsince =>
      obtain ⟨hfresh, hmeets, hconfirmed⟩ := (canGraduate_iff hnow hstores).mp hok
      exact ⟨c, hsince, hfresh, hmeets.2, hconfirmed⟩

end

/-! ### A reserve of one dollar -/

def dollarToken : BondingCurveToken where
  tokenId := 7
  phase := .curve
  totalSupply := 0
  reserveBalance := 10 ^ 18
  curveType := .piecewiseLinear .cbeDefault
  threshold := .reserveValueUsd 1 300 3
  sellEnabled := false
  ammPoolId := none
  deployedAtTimestamp := 0
  treasuryBalance := 0
  graduationPendingSinceBlock := none
  lastOraclePrice := none
  lastOraclePriceTimestamp := none

def dollarCheck (block timestamp : Nat) : OracleCheck := ⟨10 ^ 8, timestamp, block, timestamp⟩

theorem graduate_within_limit :
    (∃ c, MetSince 1 dollarToken [.check (dollarCheck 1 1000), .check (dollarCheck 4 1100)] c ∧
      ((((run next dollarToken [.check (dollarCheck 1 1000)]).check (dollarCheck 4 1100)).2.graduate 1100 4).isOk = true ↔
        c.Fresh 1100 ∧ MeetsUsd 1 (10 ^ 18) c.sovUsdPrice)) ∧
    ∃ c, MetSince 1 dollarToken [.check (dollarCheck 1 1000)] c ∧ c.Fresh 1100 ∧
      1 ≤ 10 ^ 18 * c.sovUsdPrice / (tokenScale * usdPriceScale) ∧ 3 ≤ 4 - c.block := by
  have hcurve : OnCurve 1 3 dollarToken := ⟨rfl, rfl⟩
  have h := graduate_after_check hcurve (.inl ⟨rfl, rfl, rfl⟩) [.check (dollarCheck 1 1000)]
  exact ⟨h.1 (dollarCheck 4 1100) (show 1100 - 1100 ≤ 300 by decide) (by decide), h.2 1100 4 (by decide)⟩

/-- The check is about its own price and returns true. The price that was stored is older than five minutes by then. -/
theorem graduate_refused_after_check :
    let checked := (run next dollarToken [.check (dollarCheck 1 1000)]).check (dollarCheck 4 1400)
    checked.1 = true ∧ checked.2.graduate 1400 4 = .error .thresholdNotMet := by
  decide +kernel

end BondingCurveToken

end SovereignNetwork.BondingCurve
