import SovereignNetwork.Lib.Totals
import SovereignNetwork.Validators.Manager

/-!
# The cached voting power

The manager caches the voting power of its validators. Registration, removal and slashing adjust the cache by the power
of one validator, jailed ones included.
-/

namespace SovereignNetwork.Validators

open Lib

namespace ValidatorManager

/-- The subtraction wraps. -/
def removeValidator (identity : IdentityId) (m : ValidatorManager) : Except String Unit × ValidatorManager :=
  match m.validators.lookup identity with
  | some v =>
    (.ok (), { m with
      validators := m.validators.erase identity
      totalVotingPower := wrapU64 (m.totalVotingPower + 2 ^ 64 - v.votingPower) })
  | none => (.error "Validator not found", m)

def registeredPower (m : ValidatorManager) : Nat := total (fun _ v => v.votingPower) m.validators

end ValidatorManager

inductive PowerCall
  | registerValidator (now : Nat) (identity : IdentityId) (stake storageProvided : Nat) (consensusKey : DilithiumPk)
      (networkingKey rewardsKey : List UInt8) (commissionRate : Nat)
  | removeValidator (identity : IdentityId)
  | slashValidator (identity : IdentityId) (slashType : SlashType) (slashPercentage currentBlock : Nat)
  | processInactiveValidators (now maxInactiveSeconds currentBlock : Nat)
  | unjailValidator (identity : IdentityId) (currentBlock : Nat)

variable (F : PowerFormula)

def PowerCall.apply (m : ValidatorManager) : PowerCall → ValidatorManager
  | .registerValidator now identity stake storageProvided consensusKey networkingKey rewardsKey commissionRate =>
    (m.registerValidator F now identity stake storageProvided consensusKey networkingKey rewardsKey commissionRate).2
  | .removeValidator identity => (m.removeValidator identity).2
  | .slashValidator identity slashType slashPercentage currentBlock =>
    (m.slashValidator F identity slashType slashPercentage currentBlock).2
  | .processInactiveValidators now maxInactiveSeconds currentBlock =>
    (m.processInactiveValidators F now maxInactiveSeconds currentBlock).2
  | .unjailValidator identity currentBlock => (m.unjailValidator identity currentBlock).2

/-- What `process_inactive_validators` makes of a validator. -/
def Validator.penalised (now maxInactiveSeconds currentBlock : Nat) (v : Validator) : Validator :=
  if v.isInactive now maxInactiveSeconds && v.status == .active then (v.slash F .liveness 1 currentBlock).2 else v

/-- No addition of the call leaves the range of `u64`, and no validator is left in jail when one is unjailed. -/
def PowerCall.Accountable (m : ValidatorManager) : PowerCall → Prop
  | .registerValidator _ _ stake storageProvided _ _ _ _ =>
    m.totalVotingPower + F.calculateVotingPower stake storageProvided < 2 ^ 64
  | .removeValidator _ => True
  | .slashValidator identity slashType slashPercentage currentBlock =>
    ∀ v ∈ m.validators.lookup identity,
      m.totalVotingPower - v.votingPower + (v.slash F slashType slashPercentage currentBlock).2.votingPower < 2 ^ 64
  | .processInactiveValidators now maxInactiveSeconds currentBlock =>
    (m.validators.values.map fun v =>
      max v.votingPower (v.penalised F now maxInactiveSeconds currentBlock).votingPower).sum < 2 ^ 64
  | .unjailValidator identity currentBlock =>
    (m.unjailValidator identity currentBlock).1.isOk →
      ∀ v ∈ (m.unjailValidator identity currentBlock).2.validators.values, v.canParticipate

instance (m : ValidatorManager) : ∀ call, Decidable (PowerCall.Accountable F m call)
  | .registerValidator .. => inferInstanceAs (Decidable (_ < _))
  | .removeValidator _ => inferInstanceAs (Decidable True)
  | .slashValidator identity _ _ _ => inferInstanceAs (Decidable (∀ v ∈ m.validators.lookup identity, _ < _))
  | .processInactiveValidators .. => inferInstanceAs (Decidable (_ < _))
  | .unjailValidator identity currentBlock => inferInstanceAs (Decidable (_ →
      ∀ v ∈ (m.unjailValidator identity currentBlock).2.validators.values, v.canParticipate = true))

/-- The cache is the power of the registered validators. -/
structure ValidatorManager.Accounted (m : ValidatorManager) : Prop where
  cached : m.totalVotingPower = m.registeredPower
  fits : m.totalVotingPower < 2 ^ 64

variable {F} {m : ValidatorManager}

theorem registeredPower_eq (m : ValidatorManager) :
    m.registeredPower = (m.validators.values.map Validator.votingPower).sum := by
  rw [ValidatorManager.registeredPower, total, HashMap.values, List.map_map]
  rfl

/-! ## The calls -/

theorem ValidatorManager.Accounted.register (h : m.Accounted) {now : Nat} {identity : IdentityId}
    {stake storageProvided : Nat} {consensusKey : DilithiumPk} {networkingKey rewardsKey : List UInt8}
    {commissionRate : Nat}
    (hfits : m.totalVotingPower + F.calculateVotingPower stake storageProvided < 2 ^ 64) :
    (m.registerValidator F now identity stake storageProvided consensusKey networkingKey rewardsKey
      commissionRate).2.Accounted := by
  unfold ValidatorManager.registerValidator
  split
  · exact h
  · next hnone =>
    have hfresh : m.validators.lookup identity = none := by
      refine AList.lookup_eq_none.mpr fun hmem => ?_
      unfold ValidatorManager.registrationError at hnone
      simp only [hmem, if_true] at hnone
      split_ifs at hnone
    have hsum := total_insert (w := fun _ v => v.votingPower) m.validators identity
      (Validator.new F now identity stake storageProvided consensusKey networkingKey rewardsKey commissionRate)
    rw [hfresh, weight_none, Nat.add_zero] at hsum
    have hwrap : wrapU64 (m.totalVotingPower + F.calculateVotingPower stake storageProvided) =
        m.totalVotingPower + F.calculateVotingPower stake storageProvided := Nat.mod_eq_of_lt hfits
    refine ⟨?_, hwrap.trans_lt hfits⟩
    exact (hwrap.trans (congrArg (· + _) h.cached)).trans hsum.symm

theorem ValidatorManager.Accounted.votingPower_le (h : m.Accounted) {identity : IdentityId} {v : Validator}
    (hv : m.validators.lookup identity = some v) : v.votingPower ≤ m.totalVotingPower := by
  have hle := weight_le_total (w := fun _ v => v.votingPower) m.validators identity
  rw [hv, weight_some] at hle
  exact hle.trans h.cached.ge

theorem ValidatorManager.Accounted.remove (h : m.Accounted) (identity : IdentityId) :
    (m.removeValidator identity).2.Accounted := by
  unfold ValidatorManager.removeValidator
  split
  · next v hv =>
    have hle := h.votingPower_le hv
    have hsum := total_erase (w := fun _ v => v.votingPower) m.validators identity
    rw [hv, weight_some] at hsum
    have hcached := h.cached
    have hfits := h.fits
    have hwrap : wrapU64 (m.totalVotingPower + 2 ^ 64 - v.votingPower) = m.totalVotingPower - v.votingPower := by
      unfold wrapU64
      omega
    constructor
    · simp only [hwrap, ValidatorManager.registeredPower] at hcached ⊢
      omega
    · simp only [hwrap]
      omega
  · exact h

theorem ValidatorManager.Accounted.slash (h : m.Accounted) {identity : IdentityId} {slashType : SlashType}
    {slashPercentage currentBlock : Nat}
    (hfits : ∀ v ∈ m.validators.lookup identity,
      m.totalVotingPower - v.votingPower + (v.slash F slashType slashPercentage currentBlock).2.votingPower < 2 ^ 64) :
    (m.slashValidator F identity slashType slashPercentage currentBlock).2.Accounted := by
  unfold ValidatorManager.slashValidator
  split
  · next v hv =>
    have hle := h.votingPower_le hv
    have hfits := hfits v hv
    generalize v.slash F slashType slashPercentage currentBlock = slashed at hfits ⊢
    obtain ⟨slashedAmount, v'⟩ := slashed
    simp only at hfits
    have hsum := total_insert (w := fun _ v => v.votingPower) m.validators identity v'
    rw [hv, weight_some] at hsum
    have hcached := h.cached
    have hadd : saturatingAddU64 (m.totalVotingPower - v.votingPower) v'.votingPower =
        m.totalVotingPower - v.votingPower + v'.votingPower := Nat.min_eq_left (by omega)
    constructor
    · simp only [hadd, ValidatorManager.registeredPower] at hcached ⊢
      omega
    · exact hadd.trans_lt hfits
  · exact h

section

variable {now maxInactiveSeconds currentBlock : Nat}

theorem foldl_penalties (vs : List Validator) (rest : Nat)
    (hfits : rest + (vs.map fun v =>
      max v.votingPower (v.penalised F now maxInactiveSeconds currentBlock).votingPower).sum < 2 ^ 64) :
    vs.foldl (fun power v =>
      if v.isInactive now maxInactiveSeconds && v.status == .active then
        saturatingAddU64 (power - v.votingPower) (v.slash F .liveness 1 currentBlock).2.votingPower
      else power) (rest + (vs.map Validator.votingPower).sum) =
      rest + (vs.map fun v => (v.penalised F now maxInactiveSeconds currentBlock).votingPower).sum := by
  induction vs generalizing rest with
  | nil => rfl
  | cons v vs ih =>
    have hle : (vs.map Validator.votingPower).sum ≤ (vs.map fun v =>
        max v.votingPower (v.penalised F now maxInactiveSeconds currentBlock).votingPower).sum :=
      List.sum_le_sum fun v _ => Nat.le_max_left _ _
    have hpenalised : v.penalised F now maxInactiveSeconds currentBlock =
      if v.isInactive now maxInactiveSeconds && v.status == .active then (v.slash F .liveness 1 currentBlock).2
      else v := rfl
    simp only [List.map_cons, List.sum_cons, List.foldl_cons] at hfits ⊢
    split
    · next hv =>
      rw [if_pos hv] at hpenalised
      rw [hpenalised] at hfits ⊢
      generalize (v.slash F .liveness 1 currentBlock).2 = v' at hfits ⊢
      have hadd : saturatingAddU64 (rest + (v.votingPower + (vs.map Validator.votingPower).sum) - v.votingPower)
          v'.votingPower = rest + v'.votingPower + (vs.map Validator.votingPower).sum := by
        unfold saturatingAddU64
        omega
      rw [hadd, ih (rest + v'.votingPower) (by omega), Nat.add_assoc]
    · next hv =>
      rw [if_neg hv] at hpenalised
      rw [hpenalised] at hfits ⊢
      rw [← Nat.add_assoc, ih (rest + v.votingPower) (by omega), Nat.add_assoc]

theorem ValidatorManager.Accounted.processInactive (h : m.Accounted)
    (hfits : (m.validators.values.map fun v =>
      max v.votingPower (v.penalised F now maxInactiveSeconds currentBlock).votingPower).sum < 2 ^ 64) :
    (m.processInactiveValidators F now maxInactiveSeconds currentBlock).2.Accounted := by
  have hfold := foldl_penalties (F := F) m.validators.values 0 (by rwa [Nat.zero_add])
  rw [Nat.zero_add, Nat.zero_add, ← registeredPower_eq, ← h.cached] at hfold
  have hle : (m.validators.values.map fun v => (v.penalised F now maxInactiveSeconds currentBlock).votingPower).sum ≤
      (m.validators.values.map fun v =>
        max v.votingPower (v.penalised F now maxInactiveSeconds currentBlock).votingPower).sum :=
    List.sum_le_sum fun v _ => Nat.le_max_right _ _
  have hcached : (m.processInactiveValidators F now maxInactiveSeconds currentBlock).2.totalVotingPower =
      (m.validators.values.map fun v => (v.penalised F now maxInactiveSeconds currentBlock).votingPower).sum := hfold
  constructor
  · have hvalues : (m.processInactiveValidators F now maxInactiveSeconds currentBlock).2.validators.values =
        m.validators.values.map (Validator.penalised F now maxInactiveSeconds currentBlock) :=
      HashMap.values_mapValues _ m.validators
    rw [hcached, registeredPower_eq, hvalues, List.map_map]
    rfl
  · rw [hcached]
    exact hle.trans_lt hfits

end

theorem votingPower_unjail {v v' : Validator} {currentBlock : Nat} (h : v.unjail currentBlock = .ok v') :
    v'.votingPower = v.votingPower := by
  unfold Validator.unjail at h
  split at h
  · cases h
  · cases h
    rfl

theorem ValidatorManager.Accounted.unjail (h : m.Accounted) {identity : IdentityId} {currentBlock : Nat}
    (hall : (m.unjailValidator identity currentBlock).1.isOk →
      ∀ v ∈ (m.unjailValidator identity currentBlock).2.validators.values, v.canParticipate) :
    (m.unjailValidator identity currentBlock).2.Accounted := by
  unfold ValidatorManager.unjailValidator at hall ⊢
  split at hall
  swap
  · exact h
  next v hv =>
  split at hall
  · exact h
  next v' hv' =>
  have hsum := total_insert (w := fun _ v => v.votingPower) m.validators identity v'
  rw [hv, weight_some, votingPower_unjail hv', Nat.add_right_cancel_iff] at hsum
  have hpower : ((HashMap.values (m.validators.insert identity v')).map Validator.votingPower).sum =
      m.totalVotingPower := by
    rw [h.cached, ValidatorManager.registeredPower, ← hsum, total, HashMap.values, List.map_map]
    rfl
  have hwrap : wrapU64 (((HashMap.values (m.validators.insert identity v')).filter Validator.canParticipate).map
      Validator.votingPower).sum = m.totalVotingPower := by
    rw [List.filter_eq_self.mpr (hall rfl), hpower]
    exact Nat.mod_eq_of_lt h.fits
  exact ⟨hwrap.trans (h.cached.trans hsum.symm), hwrap.trans_lt h.fits⟩

theorem ValidatorManager.Accounted.apply (h : m.Accounted) {call : PowerCall} (hcall : call.Accountable F m) :
    (call.apply F m).Accounted := by
  cases call with
  | registerValidator => exact h.register hcall
  | removeValidator identity => exact h.remove identity
  | slashValidator => exact h.slash hcall
  | processInactiveValidators => exact h.processInactive hcall
  | unjailValidator => exact h.unjail hcall

/-! ## Every run -/

/-- After every call the cache is the power of all registered validators, so a removal never subtracts more. -/
theorem voting_power_is_accounted (F : PowerFormula) (maxValidators minStake : Nat) (developmentMode : Bool)
    (calls : List PowerCall)
    (hcalls : Along (PowerCall.apply F) (PowerCall.Accountable F)
      (.newWithDevelopmentMode maxValidators minStake developmentMode) calls) :
    let m := run (PowerCall.apply F) (.newWithDevelopmentMode maxValidators minStake developmentMode) calls
    m.totalVotingPower = m.registeredPower ∧
      ∀ identity v, m.validators.lookup identity = some v → v.votingPower ≤ m.totalVotingPower := by
  have h := hcalls.invariant (I := ValidatorManager.Accounted) (fun _ _ hcall h => h.apply hcall)
    ⟨rfl, Nat.two_pow_pos 64⟩
  exact ⟨h.cached, fun _ _ => h.votingPower_le⟩

/-! ## A jailed validator drops out of the cache -/

def stakePower : PowerFormula := ⟨fun stake _ => stake / 1000000⟩

def registerPair : List PowerCall :=
  [.registerValidator 0 7 (2000 * 1000000) 0 5 [1] [2] 0, .registerValidator 0 8 (5000 * 1000000) 0 6 [3] [4] 0]

def unjailAfterOneFault : List PowerCall :=
  registerPair ++ [.slashValidator 7 .liveness 1 20, .unjailValidator 7 1020]

theorem power_of_unjailed_pair_accounted :
    (run (PowerCall.apply stakePower) (.newWithDevelopmentMode 21 1000 false) unjailAfterOneFault).totalVotingPower =
      (run (PowerCall.apply stakePower) (.newWithDevelopmentMode 21 1000 false) unjailAfterOneFault).registeredPower :=
  (voting_power_is_accounted stakePower 21 1000 false unjailAfterOneFault (by decide +kernel)).1

/-- Both validators are jailed and one is unjailed: the other one has more power than the cache. -/
theorem unjail_forgets_jailed_power :
    let m := run (PowerCall.apply stakePower) (.newWithDevelopmentMode 21 1000 false)
      (registerPair ++ [.slashValidator 7 .liveness 1 20, .slashValidator 8 .liveness 1 20, .unjailValidator 7 1020])
    m.totalVotingPower = 1980 ∧ m.registeredPower = 6930 ∧
      (m.validators.lookup 8).map Validator.votingPower = some 4950 ∧
      (m.removeValidator 8).2.totalVotingPower = 2 ^ 64 - 2970 := by
  decide +kernel

end SovereignNetwork.Validators
