import SovereignNetwork.Treasury.Kernel

/-!
# The reference value

The reference value of the token in USD (SRV) follows from the value committed to it and its supply, and an update is
bounded in basis points of the current value. Prices and heights are `u64`, supplies `u128`, basis points `u16`. The casts
to fewer bits truncate.
-/

namespace SovereignNetwork.Treasury

open Lib
open Execution (PublicKey TokenContract)

structure SRVUpdateRecord where
  height : Nat
  epoch : Nat
  newSrv : Nat
  previousSrv : Nat
  committedValueUsd : Nat
  circulatingSupplySov : Nat
  proposalId : Bytes 32
  deriving DecidableEq

inductive SRVError
  | changeExceedsLimit
  | invalidCirculatingSupply
  | invalidStabilityMultiplier
  | paused
  | overflow
  deriving DecidableEq

structure SRVState where
  currentSrv : Nat
  committedValueUsd : Nat
  circulatingSupplySov : Nat
  stabilityMultiplierBps : Nat
  maxChangeBps : Nat := 100
  lastUpdateHeight : Nat := 0
  lastUpdateEpoch : Nat := 0
  updateHistory : List SRVUpdateRecord := []
  emergencyPaused : Bool := false
  deriving DecidableEq

def calculateSrv (committedValueUsd circulatingSupplySov multiplierBps : Nat) : Except SRVError Nat := do
  if circulatingSupplySov = 0 then
    throw .invalidCirculatingSupply
  if multiplierBps = 0 then
    throw .invalidStabilityMultiplier
  let scaled ← okOr (checkedMulU128 committedValueUsd 1000000000000000) .overflow
  let baseSrv ← okOr (checkedDiv scaled circulatingSupplySov) .overflow
  let multiplied ← okOr (checkedMulU128 baseSrv multiplierBps) .overflow
  let srv ← okOr (checkedDiv multiplied 10000) .overflow
  return wrapU64 srv

namespace SRVState

def validateProposedChange (s : SRVState) (proposedSrv : Nat) : Except SRVError Unit := do
  if s.emergencyPaused then
    throw .paused
  -- the first value is not bounded
  if s.currentSrv = 0 then
    return
  let change := if proposedSrv > s.currentSrv then proposedSrv - s.currentSrv else s.currentSrv - proposedSrv
  let scaled ← okOr (checkedMulU128 change 10000) .overflow
  let ratio ← okOr (checkedDiv scaled s.currentSrv) .overflow
  let changeBps := ratio % 2 ^ 16
  if changeBps > s.maxChangeBps then
    throw .changeExceedsLimit

/-- The last hundred updates are kept. -/
def recorded (history : List SRVUpdateRecord) (record : SRVUpdateRecord) : List SRVUpdateRecord :=
  let pushed := history ++ [record]
  if pushed.length > 100 then pushed.tail else pushed

def applyUpdate (s : SRVState) (newCommittedValue circulatingSupply : Nat) (proposalId : Bytes 32) (height epoch : Nat) :
    Except SRVError (Nat × SRVState) := do
  let newSrv ← calculateSrv newCommittedValue circulatingSupply s.stabilityMultiplierBps
  s.validateProposedChange newSrv
  let record := ⟨height, epoch, newSrv, s.currentSrv, newCommittedValue, circulatingSupply, proposalId⟩
  return (newSrv, { s with
    updateHistory := recorded s.updateHistory record
    committedValueUsd := newCommittedValue
    circulatingSupplySov := circulatingSupply
    currentSrv := newSrv
    lastUpdateHeight := height
    lastUpdateEpoch := epoch })

def updateStabilityMultiplier (s : SRVState) (newMultiplierBps : Nat) : Except SRVError SRVState := do
  if newMultiplierBps = 0 then
    throw .invalidStabilityMultiplier
  return { s with stabilityMultiplierBps := newMultiplierBps }

end SRVState

/-- A refusal of an update as an error of the kernel. -/
def srvOpError : SRVError → KernelOpError
  | .changeExceedsLimit => .delayNotElapsed
  | .paused => .paused
  | .invalidCirculatingSupply | .invalidStabilityMultiplier | .overflow => .invalidState

/-- The new multiplier stays when the update is refused. -/
def TreasuryKernel.applySrvUpdate (k : TreasuryKernel) (srv : SRVState) (caller : PublicKey) (newCommittedValue : Nat)
    (newMultiplierBps : Option Nat) (proposalId : Bytes 32) (height epoch : Nat) (token : TokenContract) :
    Except KernelOpError Nat × SRVState :=
  if caller ≠ k.governanceAuthority then (.error .unauthorized, srv)
  else
    let multiplied := match newMultiplierBps with
      | some mult => srv.updateStabilityMultiplier mult
      | none => .ok srv
    match multiplied with
    | .error _ => (.error .invalidState, srv)
    | .ok multiplied =>
      match multiplied.applyUpdate newCommittedValue token.totalSupply proposalId height epoch with
      | .error e => (.error (srvOpError e), multiplied)
      | .ok (newSrv, updated) => (.ok newSrv, updated)

namespace SRVState

/-! ## Smoothing -/

def exactSrv (committed supply multiplier : Nat) : Nat := committed * 10 ^ 15 / supply * multiplier / 10 ^ 4

variable {s s' : SRVState} {committed supply multiplier srv height epoch : Nat} {proposalId : Bytes 32}

/-- No product on the way to the reference value overflows. -/
def Computable (committed supply multiplier : Nat) : Prop :=
  supply ≠ 0 ∧ multiplier ≠ 0 ∧ committed * 10 ^ 15 ≤ u128Max ∧ committed * 10 ^ 15 / supply * multiplier ≤ u128Max

/-- A change to the value is within the limit, which is checked for the change modulo `2 ^ 16`. -/
def Allows (s : SRVState) (srv : Nat) : Prop :=
  s.emergencyPaused = false ∧ (s.currentSrv = 0 ∨ (srv - s.currentSrv : Int).natAbs * 10000 ≤ u128Max ∧
    (srv - s.currentSrv : Int).natAbs * 10000 / s.currentSrv % 2 ^ 16 ≤ s.maxChangeBps)

theorem calculateSrv_eq_ok : calculateSrv committed supply multiplier = .ok srv ↔
    Computable committed supply multiplier ∧ srv = wrapU64 (exactSrv committed supply multiplier) := by
  simp only [calculateSrv, guard_eq_ok, bind_eq_ok, okOr_eq_ok, pure_eq_ok, checkedMulU128_eq_some,
    checkedDiv_eq_some]
  constructor
  · rintro ⟨hsupply, hmultiplier, _, ⟨hscaled, rfl⟩, _, ⟨-, rfl⟩, _, ⟨hmultiplied, rfl⟩, _, ⟨-, rfl⟩, rfl⟩
    exact ⟨⟨hsupply, hmultiplier, hscaled, hmultiplied⟩, rfl⟩
  · rintro ⟨⟨hsupply, hmultiplier, hscaled, hmultiplied⟩, rfl⟩
    exact ⟨hsupply, hmultiplier, _, ⟨hscaled, rfl⟩, _, ⟨hsupply, rfl⟩, _, ⟨hmultiplied, rfl⟩, _, ⟨by decide, rfl⟩, rfl⟩

theorem validateProposedChange_eq_ok : s.validateProposedChange srv = .ok () ↔ s.Allows srv := by
  have hchange : (srv - s.currentSrv : Int).natAbs =
      if srv > s.currentSrv then srv - s.currentSrv else s.currentSrv - srv := by
    split <;> omega
  rw [Allows, hchange, validateProposedChange, guard_eq_ok, Bool.not_eq_true]
  refine and_congr_right fun _ => ?_
  by_cases hzero : s.currentSrv = 0
  · exact iff_of_true (if_pos hzero) (.inl hzero)
  · simp only [hzero, if_false, false_or, bind_eq_ok, okOr_eq_ok, checkedMulU128_eq_some, checkedDiv_eq_some]
    constructor
    · rintro ⟨_, ⟨hscaled, rfl⟩, _, ⟨-, rfl⟩, hle⟩
      refine ⟨hscaled, Nat.le_of_not_lt fun hlt => ?_⟩
      rw [if_pos hlt] at hle
      exact throw_eq_ok.mp hle
    · rintro ⟨hscaled, hle⟩
      exact ⟨_, ⟨hscaled, rfl⟩, _, ⟨hzero, rfl⟩, if_neg (Nat.not_lt.mpr hle)⟩

theorem applyUpdate_eq_ok (h : s.applyUpdate committed supply proposalId height epoch = .ok (srv, s')) :
    srv = wrapU64 (exactSrv committed supply s.stabilityMultiplierBps) ∧ s.Allows srv ∧ s'.currentSrv = srv := by
  simp only [applyUpdate, bind_eq_ok, pure_eq_ok, Prod.mk.injEq] at h
  obtain ⟨_, hcalculate, _, hvalidate, rfl, rfl⟩ := h
  exact ⟨(calculateSrv_eq_ok.mp hcalculate).2, validateProposedChange_eq_ok.mp hvalidate, rfl⟩

def Accepts (s : SRVState) (committed supply : Nat) : Prop :=
  Computable committed supply s.stabilityMultiplierBps ∧
    s.Allows (wrapU64 (exactSrv committed supply s.stabilityMultiplierBps))

theorem exists_applyUpdate_eq_ok (proposalId : Bytes 32) (height epoch : Nat) :
    (∃ result, s.applyUpdate committed supply proposalId height epoch = .ok result) ↔ s.Accepts committed supply := by
  simp only [applyUpdate, bind_eq_ok, pure_eq_ok, calculateSrv_eq_ok]
  constructor
  · rintro ⟨_, _, ⟨hcomputable, rfl⟩, _, hvalidate, -⟩
    exact ⟨hcomputable, validateProposedChange_eq_ok.mp hvalidate⟩
  · rintro ⟨hcomputable, hallows⟩
    exact ⟨_, _, ⟨hcomputable, rfl⟩, (), validateProposedChange_eq_ok.mpr hallows, rfl⟩

/-- An update is exact and smooth just where the new value fits its type and its change in basis points does. -/
theorem applyUpdate_exact_and_smooth (s s' : SRVState) (committed supply newSrv height epoch : Nat)
    (proposalId : Bytes 32) (hpos : 0 < s.currentSrv) (hmax : s.maxChangeBps < 2 ^ 16)
    (h : s.applyUpdate committed supply proposalId height epoch = .ok (newSrv, s')) :
    s'.currentSrv = newSrv ∧
    ((newSrv - s.currentSrv : Int).natAbs * 10000 < (s.maxChangeBps + 1) * s.currentSrv ∧
        newSrv = exactSrv committed supply s.stabilityMultiplierBps ↔
      exactSrv committed supply s.stabilityMultiplierBps < 2 ^ 64 ∧
        (exactSrv committed supply s.stabilityMultiplierBps - s.currentSrv : Int).natAbs * 10000 / s.currentSrv <
          2 ^ 16) := by
  obtain ⟨hsrv, hvalidate, hcurrent⟩ := applyUpdate_eq_ok h
  refine ⟨hcurrent, ?_, ?_⟩
  · rintro ⟨hsmooth, hexact⟩
    refine ⟨?_, ?_⟩
    · rw [← hexact, hsrv]
      exact Nat.mod_lt _ (by decide)
    · rw [← hexact]
      exact ((Nat.div_lt_iff_lt_mul hpos).mpr hsmooth).trans_le hmax
  · rintro ⟨hfits, hchange⟩
    rw [wrapU64, Nat.mod_eq_of_lt hfits] at hsrv
    have hle := (hvalidate.2.resolve_left hpos.ne').2
    rw [hsrv, Nat.mod_eq_of_lt hchange, ← hsrv] at hle
    exact ⟨(Nat.div_lt_iff_lt_mul hpos).mp (Nat.lt_succ_of_le hle), hsrv⟩

def newGenesis : SRVState where
  currentSrv := 2180000
  committedValueUsd := 109000000
  circulatingSupplySov := 50000000000000000
  stabilityMultiplierBps := 10000

/-- A commitment that is half a percent larger. -/
theorem applyUpdate_half_percent :
    ∃ s', newGenesis.applyUpdate 109545000 50000000000000000 1 10 1 = .ok (2190900, s') ∧ s'.currentSrv = 2190900 ∧
      (2190900 - 2180000) * 10000 < 101 * 2180000 := by
  obtain ⟨hcurrent, hexact⟩ := applyUpdate_exact_and_smooth newGenesis _ 109545000 50000000000000000 2190900 10 1 1
    (by decide) (by decide) rfl
  exact ⟨_, rfl, hcurrent, (hexact.mpr (by decide)).1⟩

/-- A change by 65546 basis points is one by 10 in 16 bits, and 18446744073709552000 is 384 in 64 bits. -/
theorem applyUpdate_accepts_truncated :
    let s : SRVState := ⟨384, 384, 1000000000000000, 10000, 100, 0, 0, [], false⟩
    ((s.applyUpdate 2901 1000000000000000 1 10 1).toOption.map Prod.fst = some 2901 ∧
      (s.maxChangeBps + 1) * s.currentSrv < (2901 - s.currentSrv) * 10000) ∧
    ((s.applyUpdate 18446744073709552 1000000000000 1 10 1).toOption.map Prod.fst = some 384 ∧
      exactSrv 18446744073709552 1000000000000 s.stabilityMultiplierBps = 18446744073709552000) := by
  decide

end SRVState

end SovereignNetwork.Treasury
