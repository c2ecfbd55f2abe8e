import SovereignNetwork.Swap.PolPool
import SovereignNetwork.Swap.Trading

/-!
# Protocol-owned liquidity grows

The reserve a swap leaves is rounded down, so the product of the reserves falls unless the fee makes up for the
rounding.
-/

namespace SovereignNetwork.Swap

open Lib

/-! ## Runs -/

inductive PolOp
  | swapSovToToken (sovIn minTokenOut : Nat)
  | swapTokenToSov (tokenIn minSovOut : Nat)

def PolPool.swap (pool : PolPool) : PolOp → Except PolPoolError Nat × PolPool
  | .swapSovToToken sovIn minTokenOut => pool.swapSovToToken sovIn minTokenOut
  | .swapTokenToSov tokenIn minSovOut => pool.swapTokenToSov tokenIn minSovOut

structure PolTrading where
  pool : PolPool
  sov : Flow := {}
  token : Flow := {}
  deriving DecidableEq

namespace PolTrading

/-- What the trader pays and gets. -/
def settle (t : PolTrading) (pool : PolPool) (out : Nat) : PolOp → PolTrading
  | .swapSovToToken sovIn _ =>
    { pool := pool
      sov := { t.sov with paidIn := t.sov.paidIn + sovIn }
      token := { t.token with paidOut := t.token.paidOut + out } }
  | .swapTokenToSov tokenIn _ =>
    { pool := pool
      sov := { t.sov with paidOut := t.sov.paidOut + out }
      token := { t.token with paidIn := t.token.paidIn + tokenIn } }

def step (t : PolTrading) (op : PolOp) : PolTrading :=
  match t.pool.swap op with
  | (.error _, pool) => { t with pool := pool }
  | (.ok out, pool) => t.settle pool out op

/-! ## The condition -/

/-- The fee of a swap that is made is worth what the rounding gives away, and it fits the counter of fees. -/
def FeeCovers (pool : PolPool) : PolOp → Prop
  | .swapSovToToken sovIn minTokenOut => (pool.quoteSovToToken sovIn minTokenOut).isOk = true →
    let fee := sovIn * pool.feeBps / 10000
    let effectiveSov := pool.sovReserve + (sovIn - fee)
    pool.k % effectiveSov ≤ fee * (pool.k / effectiveSov) ∧ pool.totalFeesSov + fee < 2 ^ 64
  | .swapTokenToSov tokenIn minSovOut => (pool.quoteTokenToSov tokenIn minSovOut).isOk = true →
    let newToken := pool.tokenReserve + tokenIn
    let fee := (pool.sovReserve - pool.k / newToken) * pool.feeBps / 10000
    (pool.k % newToken = 0 ∨ 0 < fee) ∧ pool.totalFeesSov + fee < 2 ^ 64

instance (pool : PolPool) : ∀ op, Decidable (FeeCovers pool op)
  | .swapSovToToken _ _ => inferInstanceAs (Decidable (_ → _ ∧ _))
  | .swapTokenToSov _ _ => inferInstanceAs (Decidable (_ → (_ ∨ _) ∧ _))

/-! ## What a swap does -/

structure Sound (pool : PolPool) : Prop where
  k_eq : pool.k = pool.sovReserve * pool.tokenReserve
  sovReserve_pos : 0 < pool.sovReserve
  tokenReserve_pos : 0 < pool.tokenReserve
  sovReserve_lt : pool.sovReserve < 2 ^ 64
  tokenReserve_lt : pool.tokenReserve < 2 ^ 64
  feeBps_eq : pool.feeBps = polFeeBps

theorem Sound.k_pos {pool : PolPool} (h : Sound pool) : 0 < pool.k :=
  h.k_eq ▸ Nat.mul_pos h.sovReserve_pos h.tokenReserve_pos

/-- The product does not fall, and what is paid in and not out is in the reserves. -/
structure Grown (t t' : PolTrading) : Prop where
  sound : Sound t'.pool
  k_le : t.pool.k ≤ t'.pool.k
  sov : t'.sov.paidIn + t.sov.paidOut + t.pool.sovReserve = t.sov.paidIn + t'.sov.paidOut + t'.pool.sovReserve
  token : t'.token.paidIn + t.token.paidOut + t.pool.tokenReserve =
    t.token.paidIn + t'.token.paidOut + t'.pool.tokenReserve

variable {t t' t'' : PolTrading} {pool : PolPool} {op : PolOp}

theorem Grown.refl (h : Sound t.pool) : Grown t t := ⟨h, Nat.le_refl _, rfl, rfl⟩

theorem Grown.trans (h : Grown t t') (h' : Grown t' t'') : Grown t t'' := by
  have hsov := h.sov
  have hsov' := h'.sov
  have htoken := h.token
  have htoken' := h'.token
  exact ⟨h'.sound, Nat.le_trans h.k_le h'.k_le, by omega, by omega⟩

theorem le_mul_div_of_covers {k d fee : Nat} (h : k % d ≤ fee * (k / d)) : k ≤ (d + fee) * (k / d) := by
  have hdiv := Nat.div_add_mod k d
  rw [Nat.add_mul]
  omega

theorem le_div_add_mul_of_covers {k d fee : Nat} (hd : 0 < d) (h : k % d = 0 ∨ 0 < fee) : k ≤ (k / d + fee) * d := by
  have hdiv := Nat.div_add_mod k d
  have hmod := Nat.mod_lt k hd
  have hfee : k % d ≤ fee * d := by
    rcases h with h | h
    · omega
    · have := Nat.mul_le_mul_right d h
      omega
  rw [Nat.add_mul, Nat.mul_comm (k / d)]
  omega

theorem fee_le (h : Sound pool) (amount : Nat) : amount * pool.feeBps / 10000 ≤ amount := by
  rw [h.feeBps_eq, polFeeBps]
  omega

theorem grown_sovToToken {sovIn minTokenOut : Nat} {q : PolPool.Quote} (h : Sound t.pool)
    (hcovers : FeeCovers t.pool (.swapSovToToken sovIn minTokenOut))
    (hquote : t.pool.quoteSovToToken sovIn minTokenOut = .ok q) :
    ∃ pool', t.pool.commit q = (.ok q.out, pool') ∧ Grown t (t.settle pool' q.out (.swapSovToToken sovIn minTokenOut)) := by
  obtain ⟨hrounding, hfees⟩ := hcovers (by rw [hquote]; rfl)
  obtain ⟨hfee, hnewToken, hlt, hout, hnewSov, hfits⟩ := PolPool.quoteSovToToken_eq_ok hquote
  rw [wrapU64, Nat.mod_eq_of_lt (by omega)] at hfee
  have hle := fee_le h sovIn
  rw [← hfee] at hrounding hfees hle
  have hpaid : t.pool.sovReserve + sovIn = t.pool.sovReserve + (sovIn - q.fee) + q.fee := by omega
  have hk : t.pool.k ≤ q.newSov * q.newToken := by
    rw [hnewSov, hpaid, hnewToken]
    exact le_mul_div_of_covers hrounding
  have hpos : 0 < q.newToken := Nat.pos_of_mul_pos_left (Nat.lt_of_lt_of_le h.k_pos hk)
  have htoken := h.tokenReserve_lt
  refine ⟨_, PolPool.commit_eq_ok hfees hfits (by omega), ?_⟩
  refine ⟨⟨rfl, ?_, hpos, hfits, Nat.lt_trans hlt htoken, h.feeBps_eq⟩, hk, ?_, ?_⟩
  · have := h.sovReserve_pos
    show 0 < q.newSov
    omega
  · show t.sov.paidIn + sovIn + _ + _ = _ + t.sov.paidOut + q.newSov
    omega
  · show t.token.paidIn + _ + _ = _ + (t.token.paidOut + q.out) + q.newToken
    omega

theorem grown_tokenToSov {tokenIn minSovOut : Nat} {q : PolPool.Quote} (h : Sound t.pool)
    (hcovers : FeeCovers t.pool (.swapTokenToSov tokenIn minSovOut))
    (hquote : t.pool.quoteTokenToSov tokenIn minSovOut = .ok q) :
    ∃ pool', t.pool.commit q = (.ok q.out, pool') ∧ Grown t (t.settle pool' q.out (.swapTokenToSov tokenIn minSovOut)) := by
  obtain ⟨hrounding, hfees⟩ := hcovers (by rw [hquote]; rfl)
  obtain ⟨hnewToken, hfits, hlt, hfee, hnewSov, hsov, hout, hne⟩ := PolPool.quoteTokenToSov_eq_ok hquote
  rw [← hnewToken] at hrounding hfees
  rw [wrapU64, Nat.mod_eq_of_lt (by omega)] at hfee
  rw [← hfee] at hrounding hfees
  have hnewToken_pos : 0 < q.newToken := by
    have := h.tokenReserve_pos
    omega
  have hk : t.pool.k ≤ q.newSov * q.newToken := by
    rw [hnewSov]
    exact le_div_add_mul_of_covers hnewToken_pos hrounding
  have hpos : 0 < q.newSov := Nat.pos_of_mul_pos_right (Nat.lt_of_lt_of_le h.k_pos hk)
  refine ⟨_, PolPool.commit_eq_ok hfees hsov hfits, ?_⟩
  refine ⟨⟨rfl, hpos, hnewToken_pos, hsov, hfits, h.feeBps_eq⟩, hk, ?_, ?_⟩
  · show t.sov.paidIn + _ + _ = _ + (t.sov.paidOut + q.out) + q.newSov
    omega
  · show t.token.paidIn + tokenIn + _ + _ = _ + t.token.paidOut + q.newToken
    omega

/-- A call is refused and changes nothing, or it is made and the pool grows. -/
structure Plays (t : PolTrading) (op : PolOp) : Prop where
  grown : Grown t (t.step op)
  refused : ∀ e pool', t.pool.swap op = (.error e, pool') → pool' = t.pool

theorem Plays.of_refused {e : PolPoolError} (h : Sound t.pool) (hswap : t.pool.swap op = (.error e, t.pool)) :
    Plays t op := by
  refine ⟨?_, fun e' pool' h' => ?_⟩
  · unfold step
    rw [hswap]
    exact .refl h
  · rw [hswap] at h'
    cases h'
    rfl

theorem Plays.of_made {out : Nat} {pool' : PolPool} (h : Grown t (t.settle pool' out op))
    (hswap : t.pool.swap op = (.ok out, pool')) : Plays t op := by
  refine ⟨?_, fun e pool'' h' => ?_⟩
  · unfold step
    rw [hswap]
    exact h
  · rw [hswap] at h'
    cases h'

theorem plays (h : Sound t.pool) (hcovers : FeeCovers t.pool op) : Plays t op := by
  cases op with
  | swapSovToToken sovIn minTokenOut =>
    cases hquote : t.pool.quoteSovToToken sovIn minTokenOut with
    | error e => exact .of_refused (e := e) h (by simp only [PolPool.swap, PolPool.swapSovToToken, hquote])
    | ok q =>
      obtain ⟨pool', hcommit, hgrown⟩ := grown_sovToToken h hcovers hquote
      exact .of_made hgrown (by simp only [PolPool.swap, PolPool.swapSovToToken, hquote, hcommit])
  | swapTokenToSov tokenIn minSovOut =>
    cases hquote : t.pool.quoteTokenToSov tokenIn minSovOut with
    | error e => exact .of_refused (e := e) h (by simp only [PolPool.swap, PolPool.swapTokenToSov, hquote])
    | ok q =>
      obtain ⟨pool', hcommit, hgrown⟩ := grown_tokenToSov h hcovers hquote
      exact .of_made hgrown (by simp only [PolPool.swap, PolPool.swapTokenToSov, hquote, hcommit])

/-! ## Whole runs -/

theorem Sound.run {ops : List PolOp} (h : Sound t.pool) (hcovers : Along step (fun t => FeeCovers t.pool) t ops) :
    Grown t (run step t ops) ∧ Along step Plays t ops := by
  have hstep : ∀ s op, FeeCovers s.pool op → Grown t s → Grown t (s.step op) := fun s op hop hs =>
    hs.trans (plays hs.sound hop).grown
  refine ⟨hcovers.invariant hstep (.refl h), ?_⟩
  exact (hcovers.with_invariant hstep (.refl h)).mono fun s op hs => plays hs.2.sound hs.1

theorem sound_of_initializePool {tokenId : Bytes 32} {initialSov initialToken : Nat} (hsov : initialSov < 2 ^ 64)
    (htoken : initialToken < 2 ^ 64) (h : (PolPool.new tokenId).initializePool initialSov initialToken = .ok pool) :
    Sound pool := by
  simp only [PolPool.initializePool, guard_eq_ok, bind_eq_ok, okOr_eq_ok, pure_eq_ok, checkedMulU128_eq_some] at h
  obtain ⟨-, hmin, _, ⟨-, rfl⟩, rfl⟩ := h
  have hvalue : polMinimumInitialLiquidity = 1000000 := rfl
  exact ⟨rfl, by simp only; omega, by simp only; omega, hsov, htoken, rfl⟩

theorem Grown.sov_paidOut_le (h : Grown t t') (hsound : Sound t.pool)
    (htokens : t'.token.paidOut + t.token.paidIn = t'.token.paidIn + t.token.paidOut) :
    t'.sov.paidOut + t.sov.paidIn ≤ t'.sov.paidIn + t.sov.paidOut := by
  have htoken := h.token
  have hreserve : t'.pool.tokenReserve = t.pool.tokenReserve := by omega
  have hle : t.pool.sovReserve ≤ t'.pool.sovReserve := by
    refine Nat.le_of_mul_le_mul_right (c := t'.pool.tokenReserve) ?_ h.sound.tokenReserve_pos
    rw [← h.sound.k_eq, hreserve, ← hsound.k_eq]
    exact h.k_le
  have hsov := h.sov
  omega

end PolTrading

/-- In a run of swaps whose fees make up for the rounding: the product of the reserves is the recorded one and never falls,
the reserves stay positive and a refused call changes nothing. Swaps of a trader who ends with no net tokens take out no
more SOV than they pay in. -/
theorem owned_liquidity_grows {tokenId : Bytes 32} {initialSov initialToken : Nat} {pool : PolPool}
    (hsov : initialSov < 2 ^ 64) (htoken : initialToken < 2 ^ 64)
    (hinit : (PolPool.new tokenId).initializePool initialSov initialToken = .ok pool) (before trades : List PolOp)
    (hcovers : Along PolTrading.step (fun t => PolTrading.FeeCovers t.pool) ⟨pool, {}, {}⟩ (before ++ trades)) :
    let s := run PolTrading.step ⟨pool, {}, {}⟩ before
    let t := run PolTrading.step ⟨pool, {}, {}⟩ (before ++ trades)
    t.pool.k = t.pool.sovReserve * t.pool.tokenReserve ∧
      s.pool.k ≤ t.pool.k ∧
      0 < t.pool.sovReserve ∧ 0 < t.pool.tokenReserve ∧
      Along PolTrading.step (fun t op => ∀ e pool', t.pool.swap op = (.error e, pool') → pool' = t.pool)
        ⟨pool, {}, {}⟩ (before ++ trades) ∧
      (t.token.paidOut + s.token.paidIn = t.token.paidIn + s.token.paidOut →
        t.sov.paidOut + s.sov.paidIn ≤ t.sov.paidIn + s.sov.paidOut) := by
  have hstart : PolTrading.Sound (⟨pool, {}, {}⟩ : PolTrading).pool :=
    PolTrading.sound_of_initializePool hsov htoken hinit
  obtain ⟨hall, hplays⟩ := hstart.run hcovers
  obtain ⟨hbefore, htrades⟩ := Along.append.mp hcovers
  obtain ⟨hs, -⟩ := hstart.run hbefore
  obtain ⟨ht, -⟩ := hs.sound.run htrades
  rw [← run_append] at ht
  exact ⟨hall.sound.k_eq, ht.k_le, hall.sound.sovReserve_pos, hall.sound.tokenReserve_pos,
    hplays.mono fun _ _ h => h.refused, ht.sov_paidOut_le hs.sound⟩

/-! ## A pool of a million each -/

def millionPool : PolPool := ⟨7, true, 30, 1000000, 1000000, 1000000000000, 0⟩

theorem owned_liquidity_grows_with_fee :
    (PolPool.new 7).initializePool 1000000 1000000 = .ok millionPool ∧
      let t := run PolTrading.step ⟨millionPool, {}, {}⟩ [.swapSovToToken 10000 1, .swapTokenToSov 9872 0]
      millionPool.k ≤ t.pool.k ∧ t.token.paidOut = t.token.paidIn ∧ t.sov.paidOut ≤ t.sov.paidIn := by
  have hinit : (PolPool.new 7).initializePool 1000000 1000000 = .ok millionPool := rfl
  have h := owned_liquidity_grows (by decide) (by decide) hinit [] [.swapSovToToken 10000 1, .swapTokenToSov 9872 0]
    (by decide +kernel)
  refine ⟨hinit, h.2.1, by decide +kernel, ?_⟩
  exact Nat.le_trans (Nat.le_add_right _ _) (h.2.2.2.2.2 (by decide +kernel))

/-- Three SOV buy three tokens and the product falls. The three tokens sell for four SOV. -/
theorem round_trip_takes_sov :
    let s := run PolTrading.step ⟨millionPool, {}, {}⟩ [.swapSovToToken 3 0]
    let t := run PolTrading.step ⟨millionPool, {}, {}⟩ [.swapSovToToken 3 0, .swapTokenToSov 3 0]
    (PolPool.new 7).initializePool 1000000 1000000 = .ok millionPool ∧ s.pool.k < millionPool.k ∧
      t.token.paidIn = t.token.paidOut ∧ t.sov.paidIn = 3 ∧ t.sov.paidOut = 4 := by
  decide +kernel

end SovereignNetwork.Swap
