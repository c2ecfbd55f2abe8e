import SovereignNetwork.Lib.Run
import SovereignNetwork.Oracle.Chain

/-!
# Slashed validators and the committee

A slashed validator leaves the committee at once, or at the next boundary of an epoch. A pending update overwrites the
committee, and nothing takes a slashed validator out of it: one that was scheduled with it brings it back.
-/

namespace SovereignNetwork.Oracle

open Lib

/-! ## Runs -/

inductive CommitteeCall
  | slashOracleValidator (keyId : KeyId) (reason : OracleSlashReason) (epochId : Nat)
  | slashAligned (keyId : KeyId) (reason : OracleSlashReason) (epochId : Nat)
  | scheduleCommitteeUpdate (members : List KeyId) (activateAtEpoch currentEpoch : Nat)
      (sourceProposalId : Option (Bytes 32))
  | cancelPendingUpdates (cancelCommittee cancelConfig : Bool)
  | applyPendingUpdates (currentEpoch : Nat)
  | applyPendingCommitteeRemovals (currentEpoch : Nat)

/-- The chain with those slashed for the next boundary, by the epoch of the slash, and those that must be out. -/
structure CommitteeRun where
  chain : OracleChain
  awaiting : List (KeyId × Nat) := []
  expelled : List KeyId := []

namespace CommitteeRun

variable (X : OracleExternals)

def members (r : CommitteeRun) : Finset KeyId := r.chain.oracleState.committee.members

/-- Processing the boundary of an epoch past that of the slash makes a removal final. -/
def step (r : CommitteeRun) : CommitteeCall → CommitteeRun
  | .slashOracleValidator keyId reason epochId =>
    { r with
      chain := (r.chain.slashOracleValidator X keyId reason epochId).2
      expelled := keyId :: r.expelled }
  | .slashAligned keyId reason epochId =>
    { r with
      chain := (r.chain.slashOracleValidatorWithOptions X keyId reason epochId true).2
      awaiting := (keyId, epochId) :: r.awaiting }
  | .scheduleCommitteeUpdate members activateAtEpoch currentEpoch sourceProposalId =>
    match r.chain.oracleState.scheduleCommitteeUpdate members activateAtEpoch currentEpoch sourceProposalId with
    | .error _ => r
    | .ok s => { r with chain := { r.chain with oracleState := s } }
  | .cancelPendingUpdates cancelCommittee cancelConfig =>
    { r with chain := { r.chain with
        oracleState := (r.chain.oracleState.cancelPendingUpdates cancelCommittee cancelConfig).2 } }
  | .applyPendingUpdates currentEpoch =>
    { r with chain := { r.chain with oracleState := r.chain.oracleState.applyPendingUpdates currentEpoch } }
  | .applyPendingCommitteeRemovals currentEpoch =>
    { chain := r.chain.applyPendingCommitteeRemovals currentEpoch
      awaiting := r.awaiting.filter fun e => ¬ e.2 + 1 ≤ currentEpoch
      expelled := (r.awaiting.filter fun e => e.2 + 1 ≤ currentEpoch).map Prod.fst ++ r.expelled }

/-- Epochs are `u64`, and an update that becomes active does not list a validator that must be out. -/
def Admissible (r : CommitteeRun) : CommitteeCall → Prop
  | .applyPendingUpdates currentEpoch =>
    ∀ pending ∈ r.chain.oracleState.committee.pendingUpdate,
      OracleState.due pending.activateAtEpoch pending.expiresAtEpoch currentEpoch = .active →
      Disjoint r.expelled.toFinset pending.members
  | .applyPendingCommitteeRemovals currentEpoch => currentEpoch < 2 ^ 64
  | _ => True

instance (r : CommitteeRun) (c : CommitteeCall) : Decidable (r.Admissible c) := by
  cases c <;> unfold Admissible <;> infer_instance

/-! ## What holds in every state -/

structure Sound (r : CommitteeRun) : Prop where
  out : ∀ k ∈ r.expelled, k ∉ r.members
  queued : ∀ e ∈ r.awaiting, e.2 + 1 < 2 ^ 64 →
    ∃ reason, ⟨e.1, e.2 + 1, reason⟩ ∈ r.chain.oracleState.committeeRemovalQueue

variable {X} {r : CommitteeRun} {c : CommitteeCall}

theorem members_foldl_removeMember (entries : List CommitteeRemovalEntry) (c : OracleCommitteeState) (k : KeyId) :
    k ∈ (entries.foldl (fun committee entry => committee.removeMember entry.validatorKeyId) c).members ↔
      k ∈ c.members ∧ ∀ entry ∈ entries, entry.validatorKeyId ≠ k := by
  induction entries generalizing c with
  | nil => simp
  | cons entry entries ih =>
    rw [List.foldl_cons, ih, List.forall_mem_cons]
    simp only [OracleCommitteeState.removeMember, Finset.mem_erase]
    constructor
    · rintro ⟨⟨hne, hmem⟩, hrest⟩
      exact ⟨hmem, hne.symm, hrest⟩
    · rintro ⟨hmem, hne, hrest⟩
      exact ⟨⟨hne.symm, hmem⟩, hrest⟩

theorem mem_members_removals {currentEpoch : Nat} {k : KeyId} :
    k ∈ (r.step X (.applyPendingCommitteeRemovals currentEpoch)).members ↔
      k ∈ r.members ∧ ∀ entry ∈ r.chain.oracleState.committeeRemovalQueue, entry.removeAtEpoch ≤ currentEpoch →
        entry.validatorKeyId ≠ k := by
  refine (members_foldl_removeMember _ _ k).trans (and_congr_right fun _ => ?_)
  simp only [List.mem_filter, decide_eq_true_eq, and_imp]

theorem Sound.of_removals {currentEpoch : Nat} (h : Sound r) (hrange : currentEpoch < 2 ^ 64) :
    Sound (r.step X (.applyPendingCommitteeRemovals currentEpoch)) := by
  refine ⟨fun k hk hmember => ?_, fun e he hfits => ?_⟩
  · obtain ⟨hold, hremoved⟩ := mem_members_removals.mp hmember
    rcases List.mem_append.mp hk with hk | hk
    · obtain ⟨e, he, rfl⟩ := List.mem_map.mp hk
      obtain ⟨he, hdue⟩ := List.mem_filter.mp he
      have hdue : e.2 + 1 ≤ currentEpoch := by simpa using hdue
      obtain ⟨reason, hentry⟩ := h.queued e he (by omega)
      exact hremoved _ hentry hdue rfl
    · exact h.out k hk hold
  · obtain ⟨he, hlater⟩ := List.mem_filter.mp he
    obtain ⟨reason, hentry⟩ := h.queued e he hfits
    exact ⟨reason, List.mem_filter.mpr ⟨hentry, by simpa using hlater⟩⟩

theorem members_applyPendingUpdates (r : CommitteeRun) (currentEpoch : Nat) :
    (r.step X (.applyPendingUpdates currentEpoch)).members = r.members ∨
      ∃ pending, r.chain.oracleState.committee.pendingUpdate = some pending ∧
        OracleState.due pending.activateAtEpoch pending.expiresAtEpoch currentEpoch = .active ∧
        (r.step X (.applyPendingUpdates currentEpoch)).members = pending.members := by
  have hconfig : ∀ s : OracleState, (s.applyPendingConfigUpdate currentEpoch).committee = s.committee := by
    intro s
    unfold OracleState.applyPendingConfigUpdate
    split
    · rfl
    · split <;> rfl
  simp only [members, step, OracleState.applyPendingUpdates, hconfig]
  cases hpending : r.chain.oracleState.committee.pendingUpdate with
  | none => exact .inl (by simp only [OracleState.applyPendingCommitteeUpdate, hpending])
  | some pending =>
    cases hdue : OracleState.due pending.activateAtEpoch pending.expiresAtEpoch currentEpoch with
    | expired => exact .inl (by simp only [OracleState.applyPendingCommitteeUpdate, hpending, hdue])
    | active => exact .inr ⟨pending, rfl, hdue, by simp only [OracleState.applyPendingCommitteeUpdate, hpending, hdue]⟩
    | pending => exact .inl (by simp only [OracleState.applyPendingCommitteeUpdate, hpending, hdue])

theorem queue_applyPendingUpdates (s : OracleState) (currentEpoch : Nat) :
    (s.applyPendingUpdates currentEpoch).committeeRemovalQueue = s.committeeRemovalQueue := by
  unfold OracleState.applyPendingUpdates OracleState.applyPendingConfigUpdate
  split
  · rfl
  · split <;> rfl

theorem Sound.step (h : Sound r) (hcall : r.Admissible c) : Sound (r.step X c) := by
  cases c with
  | slashOracleValidator keyId reason epochId =>
    refine ⟨fun k hk => ?_, h.queued⟩
    rcases List.mem_cons.mp hk with rfl | hk
    · exact Finset.notMem_erase _ _
    · exact fun hmember => h.out k hk (Finset.mem_of_mem_erase hmember)
  | slashAligned keyId reason epochId =>
    refine ⟨h.out, fun e he hfits => ?_⟩
    rcases List.mem_cons.mp he with rfl | he
    · refine ⟨reason, List.mem_append_right _ (List.mem_singleton.mpr ?_)⟩
      rw [show saturatingAddU64 epochId 1 = epochId + 1 from Nat.min_eq_left (by omega)]
    · obtain ⟨reason, hentry⟩ := h.queued e he hfits
      exact ⟨reason, List.mem_append_left _ hentry⟩
  | scheduleCommitteeUpdate members activateAtEpoch currentEpoch sourceProposalId =>
    cases hschedule : r.chain.oracleState.scheduleCommitteeUpdate members activateAtEpoch currentEpoch
        sourceProposalId with
    | error e =>
      simp only [CommitteeRun.step, hschedule]
      exact h
    | ok s =>
      simp only [CommitteeRun.step, hschedule]
      simp only [OracleState.scheduleCommitteeUpdate, guard_eq_ok, pure_eq_ok] at hschedule
      obtain ⟨-, -, -, rfl⟩ := hschedule
      exact ⟨h.out, h.queued⟩
  | cancelPendingUpdates cancelCommittee cancelConfig =>
    refine ⟨fun k hk => ?_, h.queued⟩
    simp only [members, CommitteeRun.step, OracleState.cancelPendingUpdates]
    split
    · exact h.out k hk
    · exact h.out k hk
  | applyPendingUpdates currentEpoch =>
    refine ⟨fun k hk => ?_, fun e he hfits => ?_⟩
    · rcases members_applyPendingUpdates (X := X) r currentEpoch with hsame | ⟨pending, hpending, hdue, hmembers⟩
      · rw [hsame]
        exact h.out k hk
      · rw [hmembers]
        exact Finset.disjoint_left.mp (hcall pending hpending hdue) (List.mem_toFinset.mpr hk)
    · obtain ⟨reason, hentry⟩ := h.queued e he hfits
      exact ⟨reason, by rw [CommitteeRun.step, queue_applyPendingUpdates]; exact hentry⟩
  | applyPendingCommitteeRemovals currentEpoch => exact h.of_removals hcall

/-- In every state reached, those slashed with immediate removal are out, and so are those slashed with aligned removal
once the boundary of a later epoch is processed. -/
theorem slashed_validators_stay_out (X : OracleExternals) (c : OracleChain) (calls : List CommitteeCall)
    (hcalls : Along (step X) Admissible ⟨c, [], []⟩ calls) :
    ∀ k ∈ (run (step X) ⟨c, [], []⟩ calls).expelled, k ∉ (run (step X) ⟨c, [], []⟩ calls).members := by
  have hstart : Sound ⟨c, [], []⟩ := ⟨nofun, nofun⟩
  exact (hcalls.invariant (fun _ _ hcall h => Sound.step h hcall) hstart).out

def threeMembers : OracleChain := { oracleState := { committee := { members := {1, 2, 3} } } }

def noValidators : OracleExternals where
  blake3Hash := fun _ => 0
  verifySignature := fun _ _ => .error .invalidSignature
  describe := fun _ => ""

/-- One member is slashed at once and one for the next boundary, while an update without the first one is pending. -/
def slashedTwo : List CommitteeCall :=
  [.slashOracleValidator 1 .conflictingAttestation 4, .scheduleCommitteeUpdate [2, 4, 5] 5 4 none,
    .slashAligned 2 .conflictingAttestation 4, .applyPendingUpdates 5, .applyPendingCommitteeRemovals 5]

theorem slashed_validators_stay_out_after_update :
    Along (step noValidators) Admissible ⟨threeMembers, [], []⟩ slashedTwo ∧
      (run (step noValidators) ⟨threeMembers, [], []⟩ slashedTwo).expelled = [2, 1] ∧
      ∀ k ∈ (run (step noValidators) ⟨threeMembers, [], []⟩ slashedTwo).expelled,
        k ∉ (run (step noValidators) ⟨threeMembers, [], []⟩ slashedTwo).members := by
  have hcalls : Along (step noValidators) Admissible ⟨threeMembers, [], []⟩ slashedTwo ∧
      (run (step noValidators) ⟨threeMembers, [], []⟩ slashedTwo).expelled = [2, 1] := by
    decide +kernel
  exact ⟨hcalls.1, hcalls.2, slashed_validators_stay_out noValidators threeMembers _ hcalls.1⟩

/-- An update that was scheduled before the slash brings the validator back. -/
theorem pending_update_restores_slashed :
    1 ∈ (run (step noValidators) ⟨threeMembers, [], []⟩
        [.scheduleCommitteeUpdate [1, 2, 4] 5 3 none, .slashOracleValidator 1 .conflictingAttestation 4]).expelled ∧
      (1 ∉ (run (step noValidators) ⟨threeMembers, [], []⟩
        [.scheduleCommitteeUpdate [1, 2, 4] 5 3 none, .slashOracleValidator 1 .conflictingAttestation 4]).members) ∧
      1 ∈ (run (step noValidators) ⟨threeMembers, [], []⟩
        [.scheduleCommitteeUpdate [1, 2, 4] 5 3 none, .slashOracleValidator 1 .conflictingAttestation 4,
          .applyPendingUpdates 5, .applyPendingCommitteeRemovals 5]).members := by
  decide +kernel

end CommitteeRun

end SovereignNetwork.Oracle
