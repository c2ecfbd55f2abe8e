import SovereignNetwork.Swap.Shares

/-!
# Rewards of the liquidity providers

Claims on pools that are funded once. A claim pays a share of what is left in the pools, and nothing remembers what was
paid: a provider that claims again is paid again, beyond its share.
-/

namespace SovereignNetwork.Swap

open Lib
open Execution (PublicKey)

/-! ## Streams -/

inductive RewardStream
  | base
  | alignment
  | ubi
  deriving DecidableEq

namespace RewardStream

def pool (m : LpPositionsManager) : RewardStream → Nat
  | .base => m.baseLpPool
  | .alignment => m.alignmentMultiplierPool
  | .ubi => m.ubiRoutingPool

def paid (r : LpRewardBreakdown) : RewardStream → Nat
  | .base => r.baseYield
  | .alignment => r.alignmentBonus
  | .ubi => r.ubiContribution

end RewardStream

namespace LpPositionsManager

variable {m m' : LpPositionsManager} {r : LpRewardBreakdown} {provider : PublicKey} {currentHeight : Nat}

def lpTokensOf (m : LpPositionsManager) (keyId : Bytes 32) : Nat :=
  (m.positions.lookup keyId).elim 0 LiquidityPosition.lpTokens

theorem paid_mul_le {pool lpTokens supply share paid : Nat} (hshare : share * supply ≤ lpTokens * 10000)
    (hpaid : paid * 10000 ≤ pool * share) : paid * supply ≤ pool * lpTokens := by
  refine Nat.le_of_mul_le_mul_right (c := 10000) ?_ (by decide)
  calc paid * supply * 10000 = paid * 10000 * supply := Nat.mul_right_comm _ _ _
    _ ≤ pool * share * supply := Nat.mul_le_mul_right _ hpaid
    _ = pool * (share * supply) := Nat.mul_assoc _ _ _
    _ ≤ pool * (lpTokens * 10000) := Nat.mul_le_mul_left _ hshare
    _ = pool * lpTokens * 10000 := (Nat.mul_assoc _ _ _).symm

theorem bonus_mul_le {pool share health : Nat} (hhealth : health ≤ 100) :
    wrapU64 (wrapU128 (pool * share * health) / (10000 * 100)) * 10000 ≤ pool * share := by
  have hbonus := wrapU64_div_mul_le (wrapU128 (pool * share * health)) (10000 * 100)
  have hwrap : wrapU128 (pool * share * health) ≤ pool * share * 100 :=
    Nat.le_trans (Nat.mod_le _ _) (Nat.mul_le_mul_left _ hhealth)
  refine Nat.le_of_mul_le_mul_right (c := 100) ?_ (by decide)
  rw [Nat.mul_assoc]
  exact Nat.le_trans hbonus hwrap

/-- A claim that is paid. -/
structure Pays (m : LpPositionsManager) (provider : PublicKey) (currentHeight : Nat) (r : LpRewardBreakdown)
    (m' : LpPositionsManager) : Prop where
  supply_pos : 0 < m.totalLpSupply
  supply_eq : m'.totalLpSupply = m.totalLpSupply
  health_eq : m'.daoHealthScore = m.daoHealthScore
  height : ∃ position, m.positions.lookup provider.keyId = some position ∧
    position.lastRewardClaimHeight < currentHeight
  lpTokensOf_eq : ∀ keyId, m'.lpTokensOf keyId = m.lpTokensOf keyId
  pool_eq : ∀ stream : RewardStream, stream.pool m' = stream.pool m - stream.paid r
  paid_le : ∀ stream : RewardStream, (stream = .alignment → m.daoHealthScore ≤ 100) →
    stream.paid r * m.totalLpSupply ≤ stream.pool m * m.lpTokensOf provider.keyId

theorem pays_of_claimLpRewards (h : m.claimLpRewards provider currentHeight = .ok (r, m')) :
    Pays m provider currentHeight r m' := by
  simp only [claimLpRewards, guard_eq_ok, bind_eq_ok, okOr_eq_ok, pure_eq_ok, Prod.mk.injEq] at h
  obtain ⟨position, hposition, hheight, hsupply, rfl, rfl⟩ := h
  have hlp : m.lpTokensOf provider.keyId = position.lpTokens := by rw [lpTokensOf, hposition, Option.elim_some]
  have hshare := wrapU64_div_mul_le (position.lpTokens * 10000) m.totalLpSupply
  refine ⟨by omega, rfl, rfl, ⟨position, hposition, by omega⟩, fun keyId => ?_, fun stream => ?_,
    fun stream hhealth => ?_⟩
  · simp only [lpTokensOf, HashMap.lookup_insert_eq_ite]
    split
    · next hkey => rw [hkey, hposition]; rfl
    · rfl
  · cases stream with
    | base => rfl
    | alignment => rfl
    | ubi => rfl
  · rw [hlp]
    cases stream with
    | base => exact paid_mul_le hshare (wrapU64_div_mul_le _ _)
    | alignment => exact paid_mul_le hshare (bonus_mul_le (hhealth rfl))
    | ubi => exact paid_mul_le hshare (wrapU64_div_mul_le _ _)

end LpPositionsManager

/-! ## Runs -/

structure RewardRun where
  manager : LpPositionsManager
  paid : List (Bytes 32 × LpRewardBreakdown) := []

structure RewardClaim where
  provider : PublicKey
  currentHeight : Nat

namespace RewardRun

def step (s : RewardRun) (c : RewardClaim) : RewardRun :=
  match s.manager.claimLpRewards c.provider c.currentHeight with
  | .error _ => s
  | .ok (r, manager) => ⟨manager, (c.provider.keyId, r) :: s.paid⟩

def received (s : RewardRun) (stream : RewardStream) (keyId : Bytes 32) : Nat :=
  ((s.paid.filter fun e => e.1 = keyId).map fun e => stream.paid e.2).sum

/-- A provider that has been paid does not claim at a later height, unless it holds the whole supply, or what is left in
each pool owes it less than one unit. -/
def ClaimsOnce (s : RewardRun) (c : RewardClaim) : Prop :=
  c.provider.keyId ∉ s.paid.map Prod.fst ∨
    (∀ position ∈ s.manager.positions.lookup c.provider.keyId, c.currentHeight ≤ position.lastRewardClaimHeight) ∨
    s.manager.lpTokensOf c.provider.keyId = s.manager.totalLpSupply ∨
    ∀ stream ∈ [RewardStream.base, .alignment, .ubi],
      stream.pool s.manager * s.manager.lpTokensOf c.provider.keyId < s.manager.totalLpSupply

instance (s : RewardRun) (c : RewardClaim) : Decidable (s.ClaimsOnce c) := by
  unfold ClaimsOnce
  infer_instance

variable {s : RewardRun} {c : RewardClaim} {stream : RewardStream} {keyId : Bytes 32}

theorem received_cons (m : LpPositionsManager) (keyId' : Bytes 32) (r : LpRewardBreakdown) :
    received ⟨m, (keyId', r) :: s.paid⟩ stream keyId =
      (if keyId' = keyId then stream.paid r else 0) + s.received stream keyId := by
  unfold received
  by_cases hkey : keyId' = keyId
  · simp [hkey]
  · simp [hkey]

theorem received_of_notMem (h : keyId ∉ s.paid.map Prod.fst) : s.received stream keyId = 0 := by
  have hnil : (s.paid.filter fun e => e.1 = keyId) = [] := by
    rw [List.filter_eq_nil_iff]
    intro e he hkey
    exact h (List.mem_map.mpr ⟨e, he, by simpa using hkey⟩)
  rw [received, hnil]
  rfl

/-! ## What holds after every claim -/

/-- The shares of the provider are those at the funding, and it has received no more than they are worth. A provider of
the whole supply has received what left the pool at most. -/
structure Fair (m : LpPositionsManager) (stream : RewardStream) (keyId : Bytes 32) (s : RewardRun) : Prop where
  supply_eq : s.manager.totalLpSupply = m.totalLpSupply
  health_eq : s.manager.daoHealthScore = m.daoHealthScore
  lpTokensOf_eq : s.manager.lpTokensOf keyId = m.lpTokensOf keyId
  pool_le : stream.pool s.manager ≤ stream.pool m
  received_le : s.received stream keyId ≤ stream.pool m * m.lpTokensOf keyId / m.totalLpSupply
  of_whole : m.lpTokensOf keyId = m.totalLpSupply → s.received stream keyId + stream.pool s.manager ≤ stream.pool m

theorem Fair.step {m : LpPositionsManager} (hhealth : stream = .alignment → m.daoHealthScore ≤ 100) (h : Fair m stream keyId s)
    (honce : s.ClaimsOnce c) : Fair m stream keyId (s.step c) := by
  unfold RewardRun.step
  cases hclaim : s.manager.claimLpRewards c.provider c.currentHeight with
  | error e => exact h
  | ok result =>
    obtain ⟨r, manager⟩ := result
    have hpays := LpPositionsManager.pays_of_claimLpRewards hclaim
    have hpool := hpays.pool_eq stream
    have hsupply : 0 < m.totalLpSupply := h.supply_eq ▸ hpays.supply_pos
    have hle : stream.pool manager ≤ stream.pool m := by have := h.pool_le; omega
    by_cases hkey : c.provider.keyId = keyId
    · -- the provider itself is paid: its share of what is left is at most its share of the funding
      subst hkey
      have hpaid := hpays.paid_le stream (h.health_eq ▸ hhealth)
      rw [h.supply_eq, h.lpTokensOf_eq] at hpaid
      have hpaid_le : m.lpTokensOf c.provider.keyId = m.totalLpSupply → stream.paid r ≤ stream.pool s.manager := by
        intro hwhole
        rw [hwhole] at hpaid
        exact Nat.le_of_mul_le_mul_right hpaid hsupply
      refine ⟨hpays.supply_eq.trans h.supply_eq, hpays.health_eq.trans h.health_eq,
        (hpays.lpTokensOf_eq _).trans h.lpTokensOf_eq, hle, ?_, fun hwhole => ?_⟩
      · rw [received_cons, if_pos rfl, Nat.add_comm]
        rcases honce with hfresh | hrefused | hwhole | hdust
        · rw [received_of_notMem hfresh, Nat.zero_add, Nat.le_div_iff_mul_le hsupply]
          exact Nat.le_trans hpaid (Nat.mul_le_mul_right _ h.pool_le)
        · obtain ⟨position, hposition, hheight⟩ := hpays.height
          exact absurd (hrefused position hposition) (Nat.not_le.mpr hheight)
        · rw [h.supply_eq, h.lpTokensOf_eq] at hwhole
          have hbound := h.of_whole hwhole
          have hpaid := hpaid_le hwhole
          rw [hwhole, Nat.mul_div_cancel _ hsupply]
          omega
        · have hdust := hdust stream (by cases stream <;> simp)
          rw [h.supply_eq, h.lpTokensOf_eq] at hdust
          have hzero : stream.paid r = 0 := by
            by_contra hne
            have := Nat.le_mul_of_pos_left m.totalLpSupply (Nat.pos_of_ne_zero hne)
            omega
          rw [hzero]
          exact h.received_le
      · have hbound := h.of_whole hwhole
        have hpaid := hpaid_le hwhole
        rw [received_cons, if_pos rfl, hpool]
        omega
    · have hreceived : received ⟨manager, (c.provider.keyId, r) :: s.paid⟩ stream keyId = s.received stream keyId := by
        rw [received_cons, if_neg hkey, Nat.zero_add]
      refine ⟨hpays.supply_eq.trans h.supply_eq, hpays.health_eq.trans h.health_eq,
        (hpays.lpTokensOf_eq _).trans h.lpTokensOf_eq, hle, hreceived ▸ h.received_le, fun hwhole => ?_⟩
      have := h.of_whole hwhole
      rw [hreceived, hpool]
      omega

/-- Among claims that are not repeated, no provider receives more of a stream than its share of the funding. -/
theorem lp_rewards_are_fair (m : LpPositionsManager) (stream : RewardStream)
    (hhealth : stream = .alignment → m.daoHealthScore ≤ 100) (claims : List RewardClaim)
    (hclaims : Along step ClaimsOnce ⟨m, []⟩ claims) (keyId : Bytes 32) :
    (run step ⟨m, []⟩ claims).received stream keyId ≤ stream.pool m * m.lpTokensOf keyId / m.totalLpSupply := by
  have hstart : Fair m stream keyId ⟨m, []⟩ :=
    ⟨rfl, rfl, rfl, Nat.le_refl _, Nat.zero_le _, fun _ => Nat.le_of_eq (Nat.zero_add _)⟩
  exact (hclaims.invariant (fun s c honce h => Fair.step hhealth h honce) hstart).received_le

def fundedManager : LpPositionsManager :=
  let provided := run LiquidityPool.step ⟨{}, 0, 0⟩
    [.addLiquidity 1000000000000 1000000000000 (PublicKey.ofKeyId 1) 100,
      .addLiquidity 1000000000000 1000000000000 (PublicKey.ofKeyId 2) 100]
  { provided.manager with baseLpPool := 1000, alignmentMultiplierPool := 800, ubiRoutingPool := 600 }

theorem lp_rewards_are_fair_to_two_providers :
    fundedManager.daoHealthScore ≤ 100 ∧
      Along step ClaimsOnce ⟨fundedManager, []⟩ [⟨PublicKey.ofKeyId 1, 200⟩, ⟨PublicKey.ofKeyId 1, 200⟩,
        ⟨PublicKey.ofKeyId 2, 300⟩] ∧
      ∀ stream keyId, (run step ⟨fundedManager, []⟩ [⟨PublicKey.ofKeyId 1, 200⟩, ⟨PublicKey.ofKeyId 1, 200⟩,
        ⟨PublicKey.ofKeyId 2, 300⟩]).received stream keyId ≤
          stream.pool fundedManager * fundedManager.lpTokensOf keyId / fundedManager.totalLpSupply := by
  have honce : fundedManager.daoHealthScore ≤ 100 ∧ Along step ClaimsOnce ⟨fundedManager, []⟩
      [⟨PublicKey.ofKeyId 1, 200⟩, ⟨PublicKey.ofKeyId 1, 200⟩, ⟨PublicKey.ofKeyId 2, 300⟩] := by
    decide +kernel
  exact ⟨honce.1, honce.2, fun stream => lp_rewards_are_fair fundedManager stream (fun _ => honce.1) _ honce.2⟩

/-- The first provider claims twice, before the second one claims. -/
theorem second_claim_exceeds_share :
    (run step ⟨fundedManager, []⟩ [⟨PublicKey.ofKeyId 1, 200⟩, ⟨PublicKey.ofKeyId 1, 201⟩]).received .base 1 = 750 ∧
      RewardStream.base.pool fundedManager * fundedManager.lpTokensOf 1 / fundedManager.totalLpSupply = 500 := by
  decide +kernel

end RewardRun

end SovereignNetwork.Swap
