import SovereignNetwork.Validators.Manager

/-!
# What one call does to one validator
-/

namespace SovereignNetwork.Validators

open Lib

variable (F : PowerFormula)

/-- The effect of a call on the validator registered under `identity`. -/
def RecoveryCall.effect (identity : IdentityId) (v : Validator) : RecoveryCall → Validator
  | .slashValidator i slashType slashPercentage currentBlock =>
    if identity = i then (v.slash F slashType slashPercentage currentBlock).2 else v
  | .processInactiveValidators now maxInactiveSeconds currentBlock =>
    if v.isInactive now maxInactiveSeconds && v.status == .active then (v.slash F .liveness 1 currentBlock).2 else v
  | .unjailValidator i currentBlock => if identity = i then (v.unjail currentBlock).toOption.getD v else v
  | .addStake i amount => if identity = i then v.addStake F amount else v
  | .removeStake i amount => if identity = i then (v.removeStake F amount).toOption.getD v else v

variable {F}

theorem lookup_slashValidator (m : ValidatorManager) (identity i : IdentityId) (slashType : SlashType)
    (slashPercentage currentBlock : Nat) :
    (m.slashValidator F i slashType slashPercentage currentBlock).2.validators.lookup identity =
      if identity = i then (m.validators.lookup i).map fun v => (v.slash F slashType slashPercentage currentBlock).2
      else m.validators.lookup identity := by
  unfold ValidatorManager.slashValidator
  by_cases h : identity = i
  · subst h
    cases hl : m.validators.lookup identity with
    | none => simp [hl]
    | some w => simp
  · cases hl : m.validators.lookup i with
    | none => simp [h]
    | some w => simp [h, AList.lookup_insert_ne h]

theorem lookup_unjailValidator (m : ValidatorManager) (identity i : IdentityId) (currentBlock : Nat) :
    (m.unjailValidator i currentBlock).2.validators.lookup identity =
      if identity = i then (m.validators.lookup i).map fun v => (v.unjail currentBlock).toOption.getD v
      else m.validators.lookup identity := by
  unfold ValidatorManager.unjailValidator
  by_cases h : identity = i
  · subst h
    cases hl : m.validators.lookup identity with
    | none => simp [hl]
    | some w =>
      cases hu : w.unjail currentBlock with
      | error e => simp [hl, hu, Except.toOption]
      | ok w' => simp [hu, Except.toOption]
  · cases hl : m.validators.lookup i with
    | none => simp [h]
    | some w =>
      cases hu : w.unjail currentBlock with
      | error e => simp [hu, h]
      | ok w' => simp [hu, h, AList.lookup_insert_ne h]

theorem lookup_apply (m : ValidatorManager) (call : RecoveryCall) (identity : IdentityId) :
    (call.apply F m).validators.lookup identity =
      (m.validators.lookup identity).map fun v => call.effect F identity v := by
  cases call with
  | slashValidator i slashType slashPercentage currentBlock =>
    simp only [RecoveryCall.apply, lookup_slashValidator, RecoveryCall.effect]
    by_cases h : identity = i
    · subst h
      simp
    · simp [h]
  | processInactiveValidators now maxInactiveSeconds currentBlock =>
    simp [RecoveryCall.apply, ValidatorManager.processInactiveValidators, RecoveryCall.effect]
  | unjailValidator i currentBlock =>
    simp only [RecoveryCall.apply, lookup_unjailValidator, RecoveryCall.effect]
    by_cases h : identity = i
    · subst h
      simp
    · simp [h]
  | addStake i amount =>
    by_cases h : identity = i
    · subst h
      simp [RecoveryCall.apply, HashMap.lookup_modify, RecoveryCall.effect]
    · simp [RecoveryCall.apply, HashMap.lookup_modify, RecoveryCall.effect, h]
  | removeStake i amount =>
    by_cases h : identity = i
    · subst h
      simp only [RecoveryCall.apply, HashMap.lookup_modify, RecoveryCall.effect, if_true]
      congr 1
      funext v
      cases v.removeStake F amount with
      | error e => rfl
      | ok v' => rfl
    · simp [RecoveryCall.apply, HashMap.lookup_modify, RecoveryCall.effect, h]

end SovereignNetwork.Validators
