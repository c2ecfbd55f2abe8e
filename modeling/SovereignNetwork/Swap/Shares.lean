import SovereignNetwork.Lib.Run
import SovereignNetwork.Lib.Shares
import SovereignNetwork.Lib.Totals
import SovereignNetwork.Swap.Positions

/-!
# Shares of the liquidity providers

A pool with its reserves: deposits and withdrawals go through the manager of the positions, swaps change the reserves.
-/

namespace SovereignNetwork.Swap

open Lib
open Execution (PublicKey)

/-! ## Runs -/

structure LiquidityPool where
  manager : LpPositionsManager := {}
  sovReserve : Nat
  tokenReserve : Nat

inductive LiquidityCall
  | addLiquidity (sovAmount tokenAmount : Nat) (provider : PublicKey) (currentHeight : Nat)
  | removeLiquidity (lpTokens minSovOut minTokenOut : Nat) (provider : PublicKey)
  | swap (sovReserve tokenReserve : Nat)

namespace LiquidityPool

/-- The caller passes the reserves and applies what the call says to them. -/
def step (p : LiquidityPool) : LiquidityCall → LiquidityPool
  | .addLiquidity sovAmount tokenAmount provider currentHeight =>
    match p.manager.addLiquidity sovAmount tokenAmount p.sovReserve p.tokenReserve provider currentHeight with
    | .error _ => p
    | .ok (_, manager) => ⟨manager, p.sovReserve + sovAmount, p.tokenReserve + tokenAmount⟩
  | .removeLiquidity lpTokens minSovOut minTokenOut provider =>
    match p.manager.removeLiquidity lpTokens minSovOut minTokenOut p.sovReserve p.tokenReserve provider with
    | (.error _, manager) => { p with manager := manager }
    | (.ok (sovOut, tokenOut), manager) => ⟨manager, p.sovReserve - sovOut, p.tokenReserve - tokenOut⟩
  | .swap sovReserve tokenReserve => ⟨p.manager, sovReserve, tokenReserve⟩

def supply (p : LiquidityPool) : Nat := p.manager.totalLpSupply

def sharesOf (positions : HashMap (Bytes 32) LiquidityPosition) : Nat :=
  total (fun _ position => position.lpTokens) positions

def held (p : LiquidityPool) : Nat := sharesOf p.manager.positions

/-- Amounts are `u64`, a swap does not lower the product of the reserves. -/
def CallOk (p : LiquidityPool) : LiquidityCall → Prop
  | .addLiquidity sovAmount tokenAmount _ currentHeight =>
    sovAmount < 2 ^ 64 ∧ tokenAmount < 2 ^ 64 ∧ currentHeight < 2 ^ 64
  | .removeLiquidity lpTokens minSovOut minTokenOut _ =>
    lpTokens < 2 ^ 64 ∧ minSovOut < 2 ^ 64 ∧ minTokenOut < 2 ^ 64
  | .swap sovReserve tokenReserve => p.sovReserve * p.tokenReserve ≤ sovReserve * tokenReserve

/-- What a run may do: calls as above, and reserves that stay `u64`. -/
def Allowed (p : LiquidityPool) (c : LiquidityCall) : Prop :=
  p.CallOk c ∧ (p.step c).sovReserve < 2 ^ 64 ∧ (p.step c).tokenReserve < 2 ^ 64

instance (p : LiquidityPool) (c : LiquidityCall) : Decidable (p.Allowed c) := by
  unfold Allowed
  cases c <;> unfold CallOk <;> infer_instance

section

variable {positions : HashMap (Bytes 32) LiquidityPosition} {keyId : Bytes 32} {position : LiquidityPosition}

theorem sharesOf_insert (positions : HashMap (Bytes 32) LiquidityPosition) (keyId : Bytes 32)
    (position : LiquidityPosition) :
    sharesOf (positions.insert keyId position) + (positions.lookup keyId).elim 0 LiquidityPosition.lpTokens =
      sharesOf positions + position.lpTokens :=
  total_insert positions keyId position

theorem lpTokens_le_sharesOf (h : positions.lookup keyId = some position) : position.lpTokens ≤ sharesOf positions := by
  have hle := weight_le_total (w := fun _ (position : LiquidityPosition) => position.lpTokens) positions keyId
  rwa [h] at hle

end

/-! ## What holds in every state -/

structure Sound (p : LiquidityPool) : Prop where
  supply_eq : p.supply = p.held
  sq_le : p.supply * p.supply ≤ p.sovReserve * p.tokenReserve
  sov_lt : p.sovReserve < 2 ^ 64
  token_lt : p.tokenReserve < 2 ^ 64

variable {p : LiquidityPool} {c : LiquidityCall}

theorem Sound.product_pos (h : Sound p) (hsupply : 0 < p.supply) : 0 < p.sovReserve * p.tokenReserve :=
  Nat.lt_of_lt_of_le (Nat.mul_pos hsupply hsupply) h.sq_le

theorem Sound.lpTokens_le (h : Sound p) {keyId : Bytes 32} {position : LiquidityPosition}
    (hposition : p.manager.positions.lookup keyId = some position) : position.lpTokens ≤ p.supply := by
  rw [h.supply_eq]
  exact lpTokens_le_sharesOf hposition

/-- Neither reserve falls relative to the supply. -/
def Kept (p p' : LiquidityPool) : Prop :=
  Undiluted p.supply p.sovReserve p'.supply p'.sovReserve ∧
    Undiluted p.supply p.tokenReserve p'.supply p'.tokenReserve

theorem Kept.refl (p : LiquidityPool) : Kept p p := ⟨Nat.le_refl _, Nat.le_refl _⟩

theorem Kept.sq_le {p' : LiquidityPool} (hkept : Kept p p') (h : Sound p) (hsupply : 0 < p.supply) :
    p'.supply * p'.supply ≤ p'.sovReserve * p'.tokenReserve :=
  hkept.1.sq_le hkept.2 (h.product_pos hsupply) h.sq_le

/-! ## Deposits -/

theorem sq_le_of_mints {sovAmount tokenAmount minted : Nat} (h : Sound p)
    (hmints : p.manager.Mints sovAmount tokenAmount p.sovReserve p.tokenReserve minted)
    (hsov : p.sovReserve + sovAmount < 2 ^ 64) (htoken : p.tokenReserve + tokenAmount < 2 ^ 64) :
    (p.supply + minted) * (p.supply + minted) ≤ (p.sovReserve + sovAmount) * (p.tokenReserve + tokenAmount) ∧
      (0 < p.supply → Undiluted p.supply p.sovReserve (p.supply + minted) (p.sovReserve + sovAmount) ∧
        Undiluted p.supply p.tokenReserve (p.supply + minted) (p.tokenReserve + tokenAmount)) := by
  cases hmints with
  | initial hsupply hsq =>
    have hsupply : p.supply = 0 := hsupply
    rw [hsupply, Nat.zero_add]
    refine ⟨Nat.le_trans hsq ?_, fun hpos => absurd hpos (Nat.lt_irrefl _)⟩
    exact Nat.mul_le_mul (Nat.le_add_left _ _) (Nat.le_add_left _ _)
  | @proportional shares hsupply hsovPos htokenPos hsovShare htokenShare hminted =>
    have hsovKept := Undiluted.of_deposit hsovShare
    have htokenKept := Undiluted.of_deposit htokenShare
    have hsq := hsovKept.sq_le htokenKept (Nat.mul_pos hsovPos htokenPos) h.sq_le
    -- the shares fit 64 bits, so that the cut keeps them
    have hlt := lt_of_sq_le hsq hsov htoken
    have hshares : minted = shares := by
      rw [hminted]
      exact Nat.mod_eq_of_lt (Nat.lt_of_le_of_lt (Nat.le_add_left _ _) hlt)
    rw [hshares]
    exact ⟨hsq, fun _ => ⟨hsovKept, htokenKept⟩⟩

/-- What one call does to a pool in a sound state. -/
structure Plays (p : LiquidityPool) (c : LiquidityCall) : Prop where
  sound : Sound (p.step c)
  kept : (∀ sov token, c ≠ .swap sov token) → 0 < p.supply → Kept p (p.step c)

theorem Plays.of_step {p' : LiquidityPool} (hstep : p.step c = p') (hsound : Sound p')
    (hkept : 0 < p.supply → Kept p p') : Plays p c :=
  ⟨hstep ▸ hsound, fun _ hsupply => hstep ▸ hkept hsupply⟩

theorem Plays.of_unchanged (h : Sound p) (hstep : p.step c = p) : Plays p c :=
  .of_step hstep h fun _ => Kept.refl p

theorem plays_addLiquidity {sovAmount tokenAmount currentHeight : Nat} {provider : PublicKey} (h : Sound p)
    (hallowed : p.Allowed (.addLiquidity sovAmount tokenAmount provider currentHeight)) :
    Plays p (.addLiquidity sovAmount tokenAmount provider currentHeight) := by
  obtain ⟨-, hsov, htoken⟩ := hallowed
  cases hadd : p.manager.addLiquidity sovAmount tokenAmount p.sovReserve p.tokenReserve provider currentHeight with
  | error e => exact .of_unchanged h (by simp only [step, hadd])
  | ok r =>
    obtain ⟨minted, manager⟩ := r
    have hstep : p.step (.addLiquidity sovAmount tokenAmount provider currentHeight) =
        ⟨manager, p.sovReserve + sovAmount, p.tokenReserve + tokenAmount⟩ := by
      simp only [step, hadd]
    rw [hstep] at hsov htoken
    obtain ⟨hmints, position, hposition, rfl⟩ := LpPositionsManager.addLiquidity_eq_ok hadd
    obtain ⟨hsq, hkept⟩ := sq_le_of_mints h hmints hsov htoken
    have hlt : p.supply + minted < 2 ^ 64 := lt_of_sq_le hsq hsov htoken
    have hle : position.lpTokens ≤ p.supply := by
      cases hlookup : p.manager.positions.lookup provider.keyId with
      | none =>
        rw [hlookup] at hposition
        exact hposition ▸ Nat.zero_le _
      | some old =>
        rw [hlookup] at hposition
        exact hposition ▸ h.lpTokens_le hlookup
    have hold : (p.manager.positions.lookup provider.keyId).elim 0 LiquidityPosition.lpTokens = position.lpTokens := by
      rw [← hposition]
      cases p.manager.positions.lookup provider.keyId with
      | none => rfl
      | some old => rfl
    rw [saturatingAddU64_of_lt (x := position.lpTokens) (by omega)] at hstep
    rw [saturatingAddU64_of_lt (x := p.manager.totalLpSupply) hlt] at hstep
    refine .of_step hstep ⟨?_, hsq, hsov, htoken⟩ fun hsupply => hkept hsupply
    have hheld := sharesOf_insert p.manager.positions provider.keyId
      { position with lpTokens := position.lpTokens + minted }
    have hsum := h.supply_eq
    unfold supply held at hsum ⊢
    rw [hold] at hheld
    simp only at hheld ⊢
    omega

/-! ## Withdrawals -/

theorem plays_removeLiquidity {lpTokens minSovOut minTokenOut : Nat} {provider : PublicKey} (h : Sound p) :
    Plays p (.removeLiquidity lpTokens minSovOut minTokenOut provider) := by
  cases hquote : p.manager.quoteRemoval lpTokens minSovOut minTokenOut p.sovReserve p.tokenReserve provider with
  | error e => exact .of_unchanged h (by simp only [step, LpPositionsManager.removeLiquidity, hquote])
  | ok r =>
    obtain ⟨⟨sovOut, tokenOut⟩, position'⟩ := r
    obtain ⟨position, hposition, hle, hsupply, rfl, rfl, rfl⟩ := LpPositionsManager.quoteRemoval_eq_ok hquote
    have hburned : lpTokens ≤ p.supply := Nat.le_trans hle (h.lpTokens_le hposition)
    have hstep : p.step (.removeLiquidity lpTokens minSovOut minTokenOut provider) =
        { manager := { p.manager with
            positions := p.manager.positions.insert provider.keyId
              { position with lpTokens := position.lpTokens - lpTokens }
            totalLpSupply := p.manager.totalLpSupply - lpTokens }
          sovReserve := p.sovReserve - wrapU64 (lpTokens * p.sovReserve / p.manager.totalLpSupply)
          tokenReserve := p.tokenReserve - wrapU64 (lpTokens * p.tokenReserve / p.manager.totalLpSupply) } := by
      have hsub : checkedSub p.manager.totalLpSupply lpTokens = some (p.manager.totalLpSupply - lpTokens) :=
        if_pos hburned
      simp only [step, LpPositionsManager.removeLiquidity, hquote, hsub]
    have hkept : Kept p (p.step (.removeLiquidity lpTokens minSovOut minTokenOut provider)) := by
      rw [hstep]
      exact ⟨.of_withdrawal (wrapU64_div_mul_le _ _), .of_withdrawal (wrapU64_div_mul_le _ _)⟩
    have hsq := hkept.sq_le h hsupply
    rw [hstep] at hkept hsq
    refine .of_step hstep ⟨?_, hsq, ?_, ?_⟩ fun _ => hkept
    · have hheld := sharesOf_insert p.manager.positions provider.keyId
        { position with lpTokens := position.lpTokens - lpTokens }
      have hsum := h.supply_eq
      unfold supply held at hsum ⊢
      rw [hposition, Option.elim_some] at hheld
      simp only at hheld ⊢
      omega
    · exact Nat.lt_of_le_of_lt (Nat.sub_le _ _) h.sov_lt
    · exact Nat.lt_of_le_of_lt (Nat.sub_le _ _) h.token_lt

/-! ## Whole runs -/

theorem Sound.plays (h : Sound p) (hallowed : p.Allowed c) : Plays p c := by
  cases c with
  | addLiquidity sovAmount tokenAmount provider currentHeight => exact plays_addLiquidity h hallowed
  | removeLiquidity lpTokens minSovOut minTokenOut provider => exact plays_removeLiquidity h
  | swap sovReserve tokenReserve =>
    obtain ⟨hproduct, hsov, htoken⟩ := hallowed
    exact ⟨⟨h.supply_eq, Nat.le_trans h.sq_le hproduct, hsov, htoken⟩, fun hswap => absurd rfl (hswap _ _)⟩

/-- A call that is no swap does not lower a reserve relative to the supply, while there is one. -/
def DilutesNobody (p : LiquidityPool) (c : LiquidityCall) : Prop :=
  (∀ sov token, c ≠ .swap sov token) → 0 < p.supply → Kept p (p.step c)

/-- The supply is the sum of the positions, and no deposit or withdrawal takes value from the shares of those who stay. -/
theorem lp_shares_are_never_diluted (sovReserve tokenReserve : Nat) (hsov : sovReserve < 2 ^ 64)
    (htoken : tokenReserve < 2 ^ 64) (calls : List LiquidityCall)
    (hcalls : Along step Allowed ⟨{}, sovReserve, tokenReserve⟩ calls) :
    (run step ⟨{}, sovReserve, tokenReserve⟩ calls).supply = (run step ⟨{}, sovReserve, tokenReserve⟩ calls).held ∧
      Along step DilutesNobody ⟨{}, sovReserve, tokenReserve⟩ calls := by
  have hstart : Sound ⟨{}, sovReserve, tokenReserve⟩ := ⟨rfl, Nat.zero_le _, hsov, htoken⟩
  have hkeeps : ∀ p c, Allowed p c → Sound p → Sound (p.step c) := fun p c hc h => (h.plays hc).sound
  refine ⟨(hcalls.invariant hkeeps hstart).supply_eq, ?_⟩
  exact (hcalls.with_invariant hkeeps hstart).mono fun p c h => (h.2.plays h.1).kept

/-- Two providers deposit, a trader buys SOV, and the first provider withdraws half. -/
def exampleCalls : List LiquidityCall :=
  [.addLiquidity 1000000000000 500000000000 (PublicKey.ofKeyId 1) 100,
    .addLiquidity 400000000000 300000000000 (PublicKey.ofKeyId 2) 101,
    .swap 1300000000000 900000000000,
    .removeLiquidity 353553390593 0 0 (PublicKey.ofKeyId 1)]

theorem lp_shares_are_never_diluted_through_a_swap :
    Along step Allowed ⟨{}, 0, 0⟩ exampleCalls ∧ 0 < (run step ⟨{}, 0, 0⟩ exampleCalls).supply ∧
      (run step ⟨{}, 0, 0⟩ exampleCalls).supply = (run step ⟨{}, 0, 0⟩ exampleCalls).held ∧
      Along step DilutesNobody ⟨{}, 0, 0⟩ exampleCalls := by
  have hallowed : Along step Allowed ⟨{}, 0, 0⟩ exampleCalls ∧ 0 < (run step ⟨{}, 0, 0⟩ exampleCalls).supply := by
    decide +kernel
  exact ⟨hallowed.1, hallowed.2,
    lp_shares_are_never_diluted 0 0 (by decide) (by decide) exampleCalls hallowed.1⟩

end LiquidityPool

end SovereignNetwork.Swap
