import SovereignNetwork.Validators.Lemmas.Calls

/-!
# Permanent bans

A validator slashed for a safety offence carries a `permanentBan`.
-/

namespace SovereignNetwork.Validators

open Lib

variable {F : PowerFormula}

/-- The three offences for which the recovery policy bans for good. -/
def SlashType.isSafety : SlashType → Bool
  | .liveness => false
  | _ => true

/-- The validator is excluded for good: slashed, with a permanent ban. -/
def Validator.Banned (v : Validator) : Prop := v.status = .slashed ∧ v.jailStatus.isPermanentlyBanned = true

def ValidatorManager.Bans (identity : IdentityId) (m : ValidatorManager) : Prop :=
  ∃ v, m.validators.lookup identity = some v ∧ v.Banned

/-- The call is not a liveness slash of `identity` while it carries a permanent ban. -/
def RecoveryCall.KeepsBanOf (identity : IdentityId) (m : ValidatorManager) : RecoveryCall → Prop
  | .slashValidator i slashType _ _ =>
    ¬ (i = identity ∧ slashType = .liveness ∧
      ((m.validators.lookup identity).any fun v => v.jailStatus.isPermanentlyBanned) = true)
  | _ => True

/-! ## One validator -/

theorem Validator.Banned.canParticipate {v : Validator} (h : v.Banned) : v.canParticipate = false := by
  simp [Validator.canParticipate, h.1]

theorem Validator.banned_slash {v : Validator} {slashType : SlashType} (h : slashType.isSafety = true)
    (slashPercentage currentBlock : Nat) : (v.slash F slashType slashPercentage currentBlock).2.Banned := by
  cases slashType with
  | liveness => cases h
  | doubleSign => exact ⟨rfl, rfl⟩
  | invalidProposal => exact ⟨rfl, rfl⟩
  | invalidVote => exact ⟨rfl, rfl⟩

theorem Validator.Banned.unjail {v : Validator} (h : v.Banned) (currentBlock : Nat) :
    ∃ e, v.unjail currentBlock = .error e := by
  obtain ⟨-, hban⟩ := h
  unfold Validator.unjail checkUnjailEligibility
  cases hj : v.jailStatus with
  | active => simp [hj, JailStatus.isPermanentlyBanned] at hban
  | livenessJail a b => simp [hj, JailStatus.isPermanentlyBanned] at hban
  | permanentBan b reason => exact ⟨_, rfl⟩

theorem Validator.Banned.removeStake {v v' : Validator} (h : v.Banned) {amount : Nat}
    (hv : v.removeStake F amount = .ok v') : v'.Banned := by
  unfold Validator.removeStake at hv
  split at hv
  · cases hv
  · split at hv
    · cases hv
    · cases hv
      exact h

theorem Validator.Banned.effect {v : Validator} (h : v.Banned) {identity : IdentityId} {call : RecoveryCall}
    (hc : ∀ slashPercentage currentBlock, call ≠ .slashValidator identity .liveness slashPercentage currentBlock) :
    (call.effect F identity v).Banned := by
  cases call with
  | slashValidator i slashType slashPercentage currentBlock =>
    by_cases hi : identity = i
    · have ht : slashType.isSafety = true := by
        cases slashType with
        | liveness => exact absurd (by rw [hi]) (hc slashPercentage currentBlock)
        | _ => rfl
      simpa [RecoveryCall.effect, hi] using Validator.banned_slash ht _ _
    · simpa [RecoveryCall.effect, hi] using h
  | processInactiveValidators now maxInactiveSeconds currentBlock =>
    simpa [RecoveryCall.effect, h.1] using h
  | unjailValidator i currentBlock =>
    obtain ⟨e, he⟩ := h.unjail currentBlock
    simpa [RecoveryCall.effect, he, Except.toOption] using h
  | addStake i amount =>
    simp only [RecoveryCall.effect]
    split
    · exact h
    · exact h
  | removeStake i amount =>
    simp only [RecoveryCall.effect]
    split
    · cases hr : v.removeStake F amount with
      | error e => exact h
      | ok v' => exact h.removeStake hr
    · exact h

/-! ## One call -/

theorem bans_slashValidator {m : ValidatorManager} {identity : IdentityId} {slashType : SlashType}
    (hm : identity ∈ m.validators) (ht : slashType.isSafety = true) (slashPercentage currentBlock : Nat) :
    (RecoveryCall.apply F m (.slashValidator identity slashType slashPercentage currentBlock)).Bans identity := by
  obtain ⟨v, hv⟩ := Option.isSome_iff_exists.mp (AList.lookup_isSome.mpr hm)
  refine ⟨(v.slash F slashType slashPercentage currentBlock).2, ?_, Validator.banned_slash ht _ _⟩
  simp [lookup_apply, hv, RecoveryCall.effect]

theorem ValidatorManager.Bans.apply {m : ValidatorManager} {identity : IdentityId} {call : RecoveryCall}
    (h : m.Bans identity) (hc : call.KeepsBanOf identity m) : (call.apply F m).Bans identity := by
  obtain ⟨v, hv, hb⟩ := h
  refine ⟨call.effect F identity v, by rw [lookup_apply, hv]; rfl, hb.effect ?_⟩
  rintro slashPercentage currentBlock rfl
  -- the ban is there before the call, which is what the condition rules out
  exact hc ⟨rfl, rfl, by simp [hv, hb.2]⟩

/-! ## Every run -/

/-- After a safety slash of a registered validator, it cannot participate in any later state of a run
in which no liveness slash hits it while it is banned. -/
theorem safety_slash_excludes_forever {m : ValidatorManager} {identity : IdentityId} {slashType : SlashType}
    (hm : identity ∈ m.validators) (ht : slashType.isSafety = true) (slashPercentage currentBlock : Nat)
    (calls : List RecoveryCall)
    (hcalls : Along (RecoveryCall.apply F) (fun m call => call.KeepsBanOf identity m)
      (RecoveryCall.apply F m (.slashValidator identity slashType slashPercentage currentBlock)) calls) :
    ∃ v, (run (RecoveryCall.apply F) m
        (.slashValidator identity slashType slashPercentage currentBlock :: calls)).validators.lookup identity = some v ∧
      v.canParticipate = false := by
  have h0 := bans_slashValidator (F := F) hm ht slashPercentage currentBlock
  obtain ⟨v, hv, hb⟩ := hcalls.invariant (I := ValidatorManager.Bans identity) (fun _ _ hc hb => hb.apply hc) h0
  exact ⟨v, hv, hb.canParticipate⟩

/-! ## The ban that is lifted -/

def sqrtPower : PowerFormula := ⟨fun stake _ => Nat.sqrt stake⟩

def soloManager : ValidatorManager :=
  ((ValidatorManager.newWithDevelopmentMode 21 1000 false).registerValidator sqrtPower 0 7 (2000 * 1000000) 0 5
    [1] [2] 0).2

/-- A double sign, a liveness slash ten blocks later and an unjail after the wait put the validator
back into the active set. -/
theorem liveness_slash_lifts_ban :
    ((run (RecoveryCall.apply sqrtPower) soloManager
      [.slashValidator 7 .doubleSign 5 10, .slashValidator 7 .liveness 1 20,
        .unjailValidator 7 1020]).validators.lookup 7).map Validator.canParticipate = some true := by
  decide +kernel

theorem safety_slash_excludes_solo :
    ∃ v, (run (RecoveryCall.apply sqrtPower) soloManager
        [.slashValidator 7 .doubleSign 5 10, .addStake 7 100, .unjailValidator 7 1020]).validators.lookup 7 = some v ∧
      v.canParticipate = false :=
  safety_slash_excludes_forever (by decide +kernel) rfl 5 10 _ ⟨trivial, trivial, trivial⟩

end SovereignNetwork.Validators
