import SovereignNetwork.Lib.Run
import SovereignNetwork.Swap.Pool

/-!
# Trading against a pool

A run of calls on a pool, with what the traders paid in and took out and what the treasury collected.
-/

namespace SovereignNetwork.Swap

open Lib
open Execution (PublicKey)

/-! ## Runs -/

inductive PoolOp
  | swapSovToToken (caller : PublicKey) (sovAmount : Nat) (minTokenOut : Option Nat)
  | swapTokenToSov (caller : PublicKey) (tokenAmount : Nat) (minSovOut : Option Nat)
  | setFeeBps (caller : PublicKey) (newFeeBps : Nat)
  | collectFees

/-- What moved in one asset. -/
structure Flow where
  paidIn : Nat := 0
  paidOut : Nat := 0
  collected : Nat := 0
  deriving DecidableEq

structure Trading where
  pool : SovSwapPool
  sov : Flow := {}
  token : Flow := {}
  deriving DecidableEq

namespace Trading

/-- Plays a call. Only a call that succeeds moves anything. -/
def play (t : Trading) : PoolOp → Option SwapError × Trading
  | .swapSovToToken caller sovAmount minTokenOut =>
    match t.pool.swapSovToToken caller sovAmount minTokenOut with
    | (.error e, pool) => (some e, { t with pool := pool })
    | (.ok r, pool) =>
      (none, { pool := pool
               sov := { t.sov with paidIn := t.sov.paidIn + r.amountIn }
               token := { t.token with paidOut := t.token.paidOut + r.amountOut } })
  | .swapTokenToSov caller tokenAmount minSovOut =>
    match t.pool.swapTokenToSov caller tokenAmount minSovOut with
    | (.error e, pool) => (some e, { t with pool := pool })
    | (.ok r, pool) =>
      (none, { pool := pool
               sov := { t.sov with paidOut := t.sov.paidOut + r.amountOut }
               token := { t.token with paidIn := t.token.paidIn + r.amountIn } })
  | .setFeeBps caller newFeeBps =>
    match t.pool.setFeeBps caller newFeeBps with
    | .error e => (some e, t)
    | .ok (_, pool) => (none, { t with pool := pool })
  | .collectFees =>
    let ((sovFees, tokenFees), pool) := t.pool.collectFees
    (none, { pool := pool
             sov := { t.sov with collected := t.sov.collected + sovFees }
             token := { t.token with collected := t.token.collected + tokenFees } })

def step (t : Trading) (op : PoolOp) : Trading := (t.play op).2

def FeeFits (t : Trading) : PoolOp → Prop
  | .swapSovToToken _ sovAmount _ => t.pool.pendingSovFees + sovAmount * t.pool.feeBps / 10000 < 2 ^ 64
  | .swapTokenToSov _ tokenAmount _ => t.pool.pendingTokenFees + tokenAmount * t.pool.feeBps / 10000 < 2 ^ 64
  | .setFeeBps _ _ => True
  | .collectFees => True

instance (t : Trading) (op : PoolOp) : Decidable (t.FeeFits op) := by
  cases op <;> unfold FeeFits <;> infer_instance

/-! ## What a call does -/

/-- One asset before and after a call: what is paid in is in the reserve, paid out, or a fee. -/
structure Balanced (reserve pending : Nat) (f : Flow) (reserve' pending' : Nat) (f' : Flow) : Prop where
  value : f'.paidIn + f.paidOut + (reserve + pending + f.collected) =
    f.paidIn + f'.paidOut + (reserve' + pending' + f'.collected)
  fees : pending + f.collected ≤ pending' + f'.collected

/-- What every call does to a pool whose product is right. -/
structure Moved (t t' : Trading) : Prop where
  k_eq : t'.pool.k = t'.pool.sovReserve * t'.pool.tokenReserve
  k_le : t.pool.k ≤ t'.pool.k
  sovReserve_pos : 0 < t'.pool.sovReserve
  tokenReserve_pos : 0 < t'.pool.tokenReserve
  sov : Balanced t.pool.sovReserve t.pool.pendingSovFees t.sov t'.pool.sovReserve t'.pool.pendingSovFees t'.sov
  token : Balanced t.pool.tokenReserve t.pool.pendingTokenFees t.token t'.pool.tokenReserve t'.pool.pendingTokenFees
    t'.token

/-- The product is that of the reserves, and neither is empty. -/
structure Sound (pool : SovSwapPool) : Prop where
  k_eq : pool.k = pool.sovReserve * pool.tokenReserve
  sovReserve_pos : 0 < pool.sovReserve
  tokenReserve_pos : 0 < pool.tokenReserve

variable {t t' t'' : Trading} {op : PoolOp}

theorem Moved.sound (h : Moved t t') : Sound t'.pool := ⟨h.k_eq, h.sovReserve_pos, h.tokenReserve_pos⟩

theorem Sound.refl (h : Sound t.pool) : Moved t t where
  k_eq := h.k_eq
  k_le := Nat.le_refl _
  sovReserve_pos := h.sovReserve_pos
  tokenReserve_pos := h.tokenReserve_pos
  sov := ⟨rfl, Nat.le_refl _⟩
  token := ⟨rfl, Nat.le_refl _⟩

theorem Balanced.trans {r p r' p' r'' p'' : Nat} {f f' f'' : Flow} (h : Balanced r p f r' p' f')
    (h' : Balanced r' p' f' r'' p'' f'') : Balanced r p f r'' p'' f'' := by
  have hvalue := h.value
  have hvalue' := h'.value
  exact ⟨by omega, Nat.le_trans h.fees h'.fees⟩

theorem Moved.trans (h : Moved t t') (h' : Moved t' t'') : Moved t t'' where
  k_eq := h'.k_eq
  k_le := Nat.le_trans h.k_le h'.k_le
  sovReserve_pos := h'.sovReserve_pos
  tokenReserve_pos := h'.tokenReserve_pos
  sov := h.sov.trans h'.sov
  token := h.token.trans h'.token

/-- A call is refused and changes nothing, or it succeeds. -/
structure PlaysSound (t : Trading) (op : PoolOp) : Prop where
  moved : Moved t (t.step op)
  refused : ∀ e, (t.play op).1 = some e → e ≠ .kInvariantViolation ∧ t.step op = t

theorem PlaysSound.of_refused {e : SwapError} (h : Sound t.pool) (he : e ≠ .kInvariantViolation)
    (hplay : t.play op = (some e, t)) : PlaysSound t op := by
  have hstep : t.step op = t := congrArg Prod.snd hplay
  refine ⟨?_, fun e' he' => ?_⟩
  · rw [hstep]
    exact h.refl
  · rw [hplay] at he'
    cases he'
    exact ⟨he, hstep⟩

theorem PlaysSound.of_moved (h : Moved t t') (hplay : t.play op = (none, t')) : PlaysSound t op := by
  have hstep : t.step op = t' := congrArg Prod.snd hplay
  refine ⟨hstep ▸ h, fun e he => ?_⟩
  rw [hplay] at he
  cases he

theorem playsSound_swapSovToToken {caller : PublicKey} {amount : Nat} {minOut : Option Nat} (h : Sound t.pool)
    (hfits : t.FeeFits (.swapSovToToken caller amount minOut)) :
    PlaysSound t (.swapSovToToken caller amount minOut) := by
  cases hq : t.pool.quote amount minOut t.pool.sovReserve t.pool.tokenReserve with
  | error e =>
    refine .of_refused (e := e) h ?_ ?_
    · rintro rfl
      exact SovSwapPool.quote_ne_kInvariantViolation h.k_eq hq
    · simp only [play, SovSwapPool.swapSovToToken, hq]
  | ok q =>
    have hquoted := SovSwapPool.quoted_of_quote hq
    have hadd : checkedAddU64 t.pool.pendingSovFees q.feeAmount = some (t.pool.pendingSovFees + q.feeAmount) :=
      if_pos (Nat.lt_of_le_of_lt (Nat.add_le_add_left hquoted.fee _) hfits)
    refine .of_moved ?_ (by simp only [play, SovSwapPool.swapSovToToken, hq, hadd]; rfl)
    have hpaid := hquoted.paid
    have hreceived := hquoted.received
    exact {
      k_eq := hquoted.newK
      k_le := h.k_eq ▸ hquoted.mul_le
      sovReserve_pos := Nat.lt_of_lt_of_le h.sovReserve_pos hquoted.reserveIn_le
      tokenReserve_pos := hquoted.newReserveOut_pos
      sov := ⟨by simp only; omega, by simp only; omega⟩
      token := ⟨by simp only; omega, Nat.le_refl _⟩ }

theorem playsSound_swapTokenToSov {caller : PublicKey} {amount : Nat} {minOut : Option Nat} (h : Sound t.pool)
    (hfits : t.FeeFits (.swapTokenToSov caller amount minOut)) :
    PlaysSound t (.swapTokenToSov caller amount minOut) := by
  have hk : t.pool.k = t.pool.tokenReserve * t.pool.sovReserve := h.k_eq.trans (Nat.mul_comm _ _)
  cases hq : t.pool.quote amount minOut t.pool.tokenReserve t.pool.sovReserve with
  | error e =>
    refine .of_refused (e := e) h ?_ ?_
    · rintro rfl
      exact SovSwapPool.quote_ne_kInvariantViolation hk hq
    · simp only [play, SovSwapPool.swapTokenToSov, hq]
  | ok q =>
    have hquoted := SovSwapPool.quoted_of_quote hq
    have hadd : checkedAddU64 t.pool.pendingTokenFees q.feeAmount = some (t.pool.pendingTokenFees + q.feeAmount) :=
      if_pos (Nat.lt_of_le_of_lt (Nat.add_le_add_left hquoted.fee _) hfits)
    refine .of_moved ?_ (by simp only [play, SovSwapPool.swapTokenToSov, hq, hadd]; rfl)
    have hpaid := hquoted.paid
    have hreceived := hquoted.received
    exact {
      k_eq := hquoted.newK.trans (Nat.mul_comm _ _)
      k_le := hk ▸ hquoted.mul_le
      sovReserve_pos := hquoted.newReserveOut_pos
      tokenReserve_pos := Nat.lt_of_lt_of_le h.tokenReserve_pos hquoted.reserveIn_le
      sov := ⟨by simp only; omega, Nat.le_refl _⟩
      token := ⟨by simp only; omega, by simp only; omega⟩ }

theorem playsSound_setFeeBps {caller : PublicKey} {newFeeBps : Nat} (h : Sound t.pool) :
    PlaysSound t (.setFeeBps caller newFeeBps) := by
  rcases t.pool.setFeeBps_cases caller newFeeBps with ⟨e, he, hset⟩ | hset
  · exact .of_refused h he (by simp only [play, hset])
  · refine .of_moved ?_ (by simp only [play, hset]; rfl)
    exact ⟨h.k_eq, Nat.le_refl _, h.sovReserve_pos, h.tokenReserve_pos, ⟨rfl, Nat.le_refl _⟩, ⟨rfl, Nat.le_refl _⟩⟩

theorem playsSound_collectFees (h : Sound t.pool) : PlaysSound t .collectFees := by
  refine .of_moved ?_ rfl
  refine ⟨h.k_eq, Nat.le_refl _, h.sovReserve_pos, h.tokenReserve_pos, ⟨?_, ?_⟩, ⟨?_, ?_⟩⟩
  all_goals
    simp only
    omega

theorem playsSound (h : Sound t.pool) (hfits : t.FeeFits op) : PlaysSound t op := by
  cases op with
  | swapSovToToken caller sovAmount minTokenOut => exact playsSound_swapSovToToken h hfits
  | swapTokenToSov caller tokenAmount minSovOut => exact playsSound_swapTokenToSov h hfits
  | setFeeBps caller newFeeBps => exact playsSound_setFeeBps h
  | collectFees => exact playsSound_collectFees h

/-! ## Whole runs -/

theorem Sound.run {calls : List PoolOp} (h : Sound t.pool) (hfits : Along step FeeFits t calls) :
    Moved t (run step t calls) ∧ Along step PlaysSound t calls := by
  have hstep : ∀ s op, s.FeeFits op → Moved t s → Moved t (s.step op) := fun s op hfits hs =>
    hs.trans (playsSound hs.sound hfits).moved
  refine ⟨hfits.invariant hstep h.refl, ?_⟩
  exact (hfits.with_invariant hstep h.refl).mono fun s op hs => playsSound hs.2.sound hs.1

theorem sound_of_initPool {derivePoolId : Bytes 32 → Bytes 32} {tokenId : Bytes 32} {daoType : DAOType}
    {initialSov initialToken : Nat} {governanceAddr treasuryAddr : PublicKey} {pool : SovSwapPool}
    (h : SovSwapPool.initPool derivePoolId tokenId daoType initialSov initialToken governanceAddr treasuryAddr =
      .ok pool) :
    Sound pool ∧ pool.pendingSovFees = 0 ∧ pool.pendingTokenFees = 0 := by
  simp only [SovSwapPool.initPool, guard_eq_ok, bind_eq_ok, okOr_eq_ok, pure_eq_ok, checkedMulU128_eq_some] at h
  obtain ⟨hliq, -, -, _, ⟨-, rfl⟩, rfl⟩ := h
  have hmin : minimumLiquidity = 1000 := rfl
  exact ⟨⟨rfl, by simp only; omega, by simp only; omega⟩, rfl, rfl⟩

theorem Moved.sov_paidOut_le (h : Moved t t') (hk : t.pool.k = t.pool.sovReserve * t.pool.tokenReserve)
    (htoken : t'.pool.tokenReserve = t.pool.tokenReserve) :
    t'.sov.paidOut + t.sov.paidIn ≤ t'.sov.paidIn + t.sov.paidOut := by
  have hreserve : t.pool.sovReserve ≤ t'.pool.sovReserve := by
    refine Nat.le_of_mul_le_mul_right (c := t'.pool.tokenReserve) ?_ h.tokenReserve_pos
    rw [← h.k_eq, htoken, ← hk]
    exact h.k_le
  have hvalue := h.sov.value
  have hfees := h.sov.fees
  omega

end Trading

/-- In a run of calls whose fees fit: the product of the reserves is the recorded one and never falls, the reserves stay
positive, no call reports a violated product, a refused call changes nothing, and in each asset what was paid in but
not out is in the reserve, pending or collected. Trades between two states of one token reserve take no SOV out. -/
theorem swaps_keep_product_and_value {derivePoolId : Bytes 32 → Bytes 32} {tokenId : Bytes 32} {daoType : DAOType}
    {initialSov initialToken : Nat} {governanceAddr treasuryAddr : PublicKey} {pool : SovSwapPool}
    (hinit : SovSwapPool.initPool derivePoolId tokenId daoType initialSov initialToken governanceAddr treasuryAddr =
      .ok pool)
    (before after : List PoolOp) (hfits : Along Trading.step Trading.FeeFits ⟨pool, {}, {}⟩ (before ++ after)) :
    let s := run Trading.step ⟨pool, {}, {}⟩ before
    let t := run Trading.step ⟨pool, {}, {}⟩ (before ++ after)
    t.pool.k = t.pool.sovReserve * t.pool.tokenReserve ∧
      s.pool.k ≤ t.pool.k ∧
      0 < t.pool.sovReserve ∧ 0 < t.pool.tokenReserve ∧
      Along Trading.step
        (fun t op => ∀ e, (t.play op).1 = some e → e ≠ .kInvariantViolation ∧ (t.step op).pool = t.pool)
        ⟨pool, {}, {}⟩ (before ++ after) ∧
      (t.sov.paidIn : Int) - t.sov.paidOut =
        t.pool.sovReserve - pool.sovReserve + t.pool.pendingSovFees + t.sov.collected ∧
      (t.token.paidIn : Int) - t.token.paidOut =
        t.pool.tokenReserve - pool.tokenReserve + t.pool.pendingTokenFees + t.token.collected ∧
      (t.pool.tokenReserve = s.pool.tokenReserve →
        (t.sov.paidOut : Int) - s.sov.paidOut ≤ t.sov.paidIn - s.sov.paidIn) := by
  obtain ⟨hsound, hsov, htoken⟩ := Trading.sound_of_initPool hinit
  have hstart : Trading.Sound (⟨pool, {}, {}⟩ : Trading).pool := hsound
  obtain ⟨hall, hplays⟩ := hstart.run hfits
  obtain ⟨hbefore, hafter⟩ := Along.append.mp hfits
  obtain ⟨hs, -⟩ := hstart.run hbefore
  obtain ⟨ht, -⟩ := hs.sound.run hafter
  rw [← run_append] at ht
  refine ⟨hall.k_eq, ht.k_le, hall.sovReserve_pos, hall.tokenReserve_pos, ?_, ?_, ?_, ?_⟩
  · exact hplays.mono fun t op h e he => ⟨(h.refused e he).1, congrArg Trading.pool (h.refused e he).2⟩
  · have hvalue := hall.sov.value
    simp only [hsov] at hvalue
    omega
  · have hvalue := hall.token.value
    simp only [htoken] at hvalue
    omega
  · intro hreserve
    have hle := ht.sov_paidOut_le hs.k_eq hreserve
    omega

/-! A pool with some trades, and one in which nobody collects the fees. -/

def governance : PublicKey := ⟨1, 0, 0⟩

def poolOf (initialSov initialToken : Nat) : Except SwapError SovSwapPool :=
  SovSwapPool.initPool (fun tokenId => tokenId) 7 .np initialSov initialToken governance governance

def somePool : SovSwapPool where
  poolId := 7
  tokenId := 7
  daoType := .np
  governanceAddr := governance
  treasuryAddr := governance
  initialized := true
  sovReserve := 100000
  tokenReserve := 500000
  k := 50000000000
  feeBps := 100
  pendingSovFees := 0
  pendingTokenFees := 0

theorem swaps_keep_product_and_value_when_fees_are_collected :
    poolOf 100000 500000 = .ok somePool ∧
      let before : List PoolOp := [.swapSovToToken governance 1000 none, .setFeeBps governance 50]
      let after : List PoolOp := [.swapTokenToSov governance 2000 (some 10), .collectFees]
      let s := run Trading.step ⟨somePool, {}, {}⟩ before
      let t := run Trading.step ⟨somePool, {}, {}⟩ (before ++ after)
      s.pool.k ≤ t.pool.k ∧ t.pool.k = t.pool.sovReserve * t.pool.tokenReserve ∧ t.sov.collected = 10 := by
  have hinit : poolOf 100000 500000 = .ok somePool := by decide +kernel
  have h := swaps_keep_product_and_value hinit [.swapSovToToken governance 1000 none, .setFeeBps governance 50]
    [.swapTokenToSov governance 2000 (some 10), .collectFees] (by decide +kernel)
  exact ⟨hinit, h.2.1, h.1, by decide +kernel⟩

def roundTrip : List PoolOp :=
  [.swapSovToToken governance 18000000000000000000 none, .swapTokenToSov governance 9000000000000000000 none]

/-- The eleventh large swap fails as its fee does not fit, and yet the reserves move. -/
theorem swap_refused_after_commit :
    ∃ pool, poolOf 1000 (2 ^ 63) = .ok pool ∧
      let t := run Trading.step ⟨pool, {}, {}⟩
        (.setFeeBps governance 1000 :: (List.replicate 10 roundTrip).flatten)
      let op : PoolOp := .swapSovToToken governance 18000000000000000000 none
      (t.play op).1 = some .overflow ∧ (t.step op).pool ≠ t.pool := by
  refine ⟨{ somePool with sovReserve := 1000, tokenReserve := 2 ^ 63, k := 1000 * 2 ^ 63 }, ?_, ?_⟩
  · decide +kernel
  · decide +kernel

end SovereignNetwork.Swap
