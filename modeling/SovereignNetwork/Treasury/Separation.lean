import SovereignNetwork.Lib.Run
import SovereignNetwork.Treasury.RoleRegistry

/-!
# Separation of duties

No person is active in two roles that exclude each other, nor twice in one role, as long as a suspended assignment is
only reactivated when nothing it excludes was assigned meanwhile.
-/

namespace SovereignNetwork.Treasury

open Lib

/-! ## Runs -/

inductive RoleCall
  | grantRole (role : RoleDefinition) (caller : Bytes 32)
  | revokeRole (roleId : RoleId) (caller : Bytes 32)
  | createAssignment (personId : IdentityId) (roleId : RoleId) (currentEpoch currentYear : Nat) (caller : Bytes 32)
  | suspendAssignment (assignmentId : AssignmentId) (currentEpoch : Nat) (caller : Bytes 32)
  | reactivateAssignment (assignmentId : AssignmentId) (caller : Bytes 32)
  | terminateAssignment (assignmentId : AssignmentId) (currentEpoch : Nat) (caller : Bytes 32)

namespace RoleRegistry

def call (assignmentIdOf : IdentityId → RoleId → Nat → AssignmentId) (r : RoleRegistry) : RoleCall → RoleRegistry
  | .grantRole role caller => (r.grantRole role caller).toOption.getD r
  | .revokeRole roleId caller => (r.revokeRole roleId caller).toOption.getD r
  | .createAssignment personId roleId currentEpoch currentYear caller =>
    ((r.createAssignment assignmentIdOf personId roleId currentEpoch currentYear caller).toOption.map Prod.snd).getD r
  | .suspendAssignment assignmentId currentEpoch caller =>
    (r.suspendAssignment assignmentId currentEpoch caller).toOption.getD r
  | .reactivateAssignment assignmentId caller => (r.reactivateAssignment assignmentId caller).toOption.getD r
  | .terminateAssignment assignmentId currentEpoch caller =>
    (r.terminateAssignment assignmentId currentEpoch caller).toOption.getD r

/-- Beside the assignment the person is in no role that it excludes. -/
def ClearOf (r : RoleRegistry) (aid : AssignmentId) (personId : IdentityId) (roleId : RoleId) : Prop :=
  ∀ e ∈ r.assignments.entries, e.1 ≠ aid → e.2.status = .active → e.2.personId = personId →
    e.2.roleId ≠ roleId ∧ r.isProhibitedCombination e.2.roleId roleId = false

instance (r : RoleRegistry) (aid : AssignmentId) (personId : IdentityId) (roleId : RoleId) :
    Decidable (r.ClearOf aid personId roleId) := by unfold ClearOf; infer_instance

/-- Condition on a call: a suspended assignment is reactivated only beside roles that it does not exclude. -/
def ReactivatesSafely (r : RoleRegistry) : RoleCall → Prop
  | .reactivateAssignment aid _ =>
    ∀ a ∈ r.assignments.lookup aid, a.status = .suspended → r.ClearOf aid a.personId a.roleId
  | _ => True

instance (r : RoleRegistry) (c : RoleCall) : Decidable (r.ReactivatesSafely c) := by
  cases c <;> unfold ReactivatesSafely <;> infer_instance

/-- Any two active assignments of a person are to different roles that may be combined. -/
def Separated (r : RoleRegistry) : Prop :=
  ∀ aid a, r.assignments.lookup aid = some a → a.status = .active → r.ClearOf aid a.personId a.roleId

structure Inv (r : RoleRegistry) : Prop where
  separated : Separated r
  indexed : ∀ aid a, r.assignments.lookup aid = some a → aid ∈ r.personAssignments a.personId
  keyed : ∀ roleId role, r.roles.lookup roleId = some role → role.roleId = roleId

/-! ## What a call keeps -/

variable {assignmentIdOf : IdentityId → RoleId → Nat → AssignmentId} {r r' : RoleRegistry} {aid : AssignmentId}
  {a : Assignment}

theorem isProhibitedCombination_congr (h : r'.prohibitedCombinations = r.prohibitedCombinations) (x y : RoleId) :
    r'.isProhibitedCombination x y = r.isProhibitedCombination x y := by
  unfold isProhibitedCombination
  rw [h]

theorem Separated.insert (h : Separated r) (hother : r'.prohibitedCombinations = r.prohibitedCombinations)
    (hassign : r'.assignments = r.assignments.insert aid a)
    (hclear : a.status = .active → r.ClearOf aid a.personId a.roleId) : Separated r' := by
  have hlookup : ∀ x, r'.assignments.lookup x = if x = aid then some a else r.assignments.lookup x := fun x => by
    rw [hassign, HashMap.lookup_insert_eq_ite]
  intro aid₁ a₁ h₁ hactive₁ ⟨aid₂, a₂⟩ he hne hactive₂ hperson
  have h₂ := HashMap.mem_entries_iff.mp he
  rw [isProhibitedCombination_congr hother]
  rw [hlookup] at h₁ h₂
  by_cases hid₁ : aid₁ = aid
  · subst hid₁
    rw [if_pos rfl] at h₁
    rw [if_neg hne] at h₂
    cases h₁
    exact hclear hactive₁ _ (HashMap.mem_entries_iff.mpr h₂) hne hactive₂ hperson
  · rw [if_neg hid₁] at h₁
    by_cases hid₂ : aid₂ = aid
    · -- the other side of the same pair
      subst hid₂
      rw [if_pos rfl] at h₂
      cases h₂
      have hback := hclear hactive₂ ⟨aid₁, a₁⟩ (HashMap.mem_entries_iff.mpr h₁) hid₁ hactive₁ hperson.symm
      exact ⟨hback.1.symm, (isProhibitedCombination_comm _ _ _).trans hback.2⟩
    · rw [if_neg hid₂] at h₂
      exact h aid₁ a₁ h₁ hactive₁ _ (HashMap.mem_entries_iff.mpr h₂) hne hactive₂ hperson

theorem Inv.create {personId : IdentityId} {roleId : RoleId} {currentEpoch currentYear : Nat} {caller : Bytes 32}
    (h : Inv r)
    (hcreate : r.createAssignment assignmentIdOf personId roleId currentEpoch currentYear caller = .ok (a, r')) :
    Inv r' := by
  obtain ⟨role, hrole, hnew, hallowed, ha, rfl⟩ := createAssignment_eq_ok hcreate
  have hrole : role.roleId = roleId := h.keyed _ _ hrole
  have hperson : a.personId = personId := by rw [ha]; rfl
  have hroleId : a.roleId = roleId := by rw [ha]; exact hrole
  refine ⟨h.separated.insert rfl rfl fun _ => ?_, fun aid' a' hlookup => ?_, h.keyed⟩
  · rintro ⟨aid', a'⟩ he - hactive hperson'
    have hlookup := HashMap.mem_entries_iff.mp he
    rw [hperson] at hperson'
    have hindex := h.indexed aid' a' hlookup
    rw [hperson'] at hindex
    have hmem := mem_getActiveRolesForPerson hindex hlookup hactive
    rw [hroleId]
    exact ⟨fun heq => hnew (heq ▸ hmem), (isProhibitedCombination_comm _ _ _).trans (hallowed _ hmem)⟩
  · have hindex := HashMap.lookup_insert_cases hlookup
    simp only [personAssignments, HashMap.lookup_insert_eq_ite]
    split
    · next hsame =>
      rw [Option.getD_some]
      refine mem_insertId.mpr ?_
      rcases hindex with ⟨hid, -⟩ | ⟨-, hold⟩
      · exact .inl hid
      · exact .inr (hsame ▸ h.indexed aid' a' hold)
    · next hne =>
      rcases hindex with ⟨-, rfl⟩ | ⟨-, hold⟩
      · exact absurd hperson hne
      · exact h.indexed aid' a' hold

theorem Inv.update {a' : Assignment} (h : Inv r) (hlookup : r.assignments.lookup aid = some a)
    (hperson : a'.personId = a.personId) (hclear : a'.status = .active → r.ClearOf aid a'.personId a'.roleId) :
    Inv { r with assignments := r.assignments.insert aid a' } := by
  refine ⟨h.separated.insert rfl rfl hclear, fun aid₁ a₁ h₁ => ?_, h.keyed⟩
  change aid₁ ∈ r.personAssignments a₁.personId
  rcases HashMap.lookup_insert_cases h₁ with ⟨rfl, rfl⟩ | ⟨-, hold⟩
  · rw [hperson]
    exact h.indexed _ a hlookup
  · exact h.indexed aid₁ a₁ hold

theorem Inv.suspend {currentEpoch : Nat} {caller : Bytes 32} (h : Inv r)
    (hsuspend : r.suspendAssignment aid currentEpoch caller = .ok r') : Inv r' := by
  obtain ⟨a, a', hlookup, hupdate, rfl⟩ := updateAssignment_eq_ok hsuspend
  simp only [Assignment.suspend, guard_eq_ok, pure_eq_ok] at hupdate
  obtain ⟨-, -, rfl⟩ := hupdate
  exact h.update hlookup rfl (by simp)

theorem Inv.terminate {currentEpoch : Nat} {caller : Bytes 32} (h : Inv r)
    (hterminate : r.terminateAssignment aid currentEpoch caller = .ok r') : Inv r' := by
  obtain ⟨a, a', hlookup, hupdate, rfl⟩ := updateAssignment_eq_ok hterminate
  simp only [Assignment.terminate, guard_eq_ok, pure_eq_ok] at hupdate
  obtain ⟨-, rfl⟩ := hupdate
  exact h.update hlookup rfl (by simp)

theorem Inv.reactivate {caller : Bytes 32} (h : Inv r)
    (hsafe : r.ReactivatesSafely (.reactivateAssignment aid caller))
    (hreactivate : r.reactivateAssignment aid caller = .ok r') : Inv r' := by
  obtain ⟨a, a', hlookup, hupdate, rfl⟩ := updateAssignment_eq_ok hreactivate
  simp only [Assignment.reactivate, guard_eq_ok, pure_eq_ok, not_not] at hupdate
  obtain ⟨hsuspended, rfl⟩ := hupdate
  exact h.update hlookup rfl fun _ => hsafe a hlookup hsuspended

theorem Inv.grant {role : RoleDefinition} {caller : Bytes 32} (h : Inv r)
    (hgrant : r.grantRole role caller = .ok r') : Inv r' := by
  simp only [grantRole, bind_eq_ok, guard_eq_ok, pure_eq_ok] at hgrant
  obtain ⟨-, -, -, rfl⟩ := hgrant
  refine ⟨h.separated, h.indexed, fun roleId role' hlookup => ?_⟩
  rcases HashMap.lookup_insert_cases hlookup with ⟨rfl, rfl⟩ | ⟨-, hold⟩
  · rfl
  · exact h.keyed _ _ hold

theorem Inv.revoke {roleId : RoleId} {caller : Bytes 32} (h : Inv r)
    (hrevoke : r.revokeRole roleId caller = .ok r') : Inv r' := by
  simp only [revokeRole, bind_eq_ok, okOr_eq_ok, pure_eq_ok] at hrevoke
  obtain ⟨-, -, role, hrole, rfl⟩ := hrevoke
  refine ⟨h.separated, h.indexed, fun roleId' role' hlookup => ?_⟩
  rcases HashMap.lookup_insert_cases hlookup with ⟨rfl, rfl⟩ | ⟨-, hold⟩
  · exact h.keyed _ role hrole
  · exact h.keyed _ _ hold

theorem Inv.of_result {ε : Type} {x : Except ε RoleRegistry} (h : Inv r) (hok : ∀ r', x = .ok r' → Inv r') :
    Inv (x.toOption.getD r) := by
  cases x with
  | error e => exact h
  | ok r' => exact hok r' rfl

theorem Inv.call {c : RoleCall} (hsafe : r.ReactivatesSafely c) (h : Inv r) : Inv (r.call assignmentIdOf c) := by
  cases c with
  | grantRole role caller => exact h.of_result fun _ => h.grant
  | revokeRole roleId caller => exact h.of_result fun _ => h.revoke
  | createAssignment personId roleId currentEpoch currentYear caller =>
    dsimp only [RoleRegistry.call]
    cases hcreate : r.createAssignment assignmentIdOf personId roleId currentEpoch currentYear caller with
    | error e => exact h
    | ok result => exact h.create hcreate
  | suspendAssignment aid currentEpoch caller => exact h.of_result fun _ => h.suspend
  | reactivateAssignment aid caller => exact h.of_result fun _ => h.reactivate hsafe
  | terminateAssignment aid currentEpoch caller => exact h.of_result fun _ => h.terminate

end RoleRegistry

/-! ## Whole runs -/

/-- From a new registry with any prohibited combinations, in a run that reactivates an assignment only where nothing it
excludes is active: two active assignments of a person are to different roles, and to roles that may be combined. -/
theorem duties_stay_separated (assignmentIdOf : IdentityId → RoleId → Nat → AssignmentId) (admin : Bytes 32)
    (prohibited : Finset (RoleId × RoleId)) (calls : List RoleCall)
    (hsafe : Along (RoleRegistry.call assignmentIdOf) RoleRegistry.ReactivatesSafely
      { RoleRegistry.new admin with prohibitedCombinations := prohibited } calls) :
    let r := run (RoleRegistry.call assignmentIdOf)
      { RoleRegistry.new admin with prohibitedCombinations := prohibited } calls
    ∀ aid₁ aid₂ a₁ a₂, aid₁ ≠ aid₂ → r.assignments.lookup aid₁ = some a₁ → r.assignments.lookup aid₂ = some a₂ →
      a₁.status = .active → a₂.status = .active → a₁.personId = a₂.personId →
      a₁.roleId ≠ a₂.roleId ∧ r.isProhibitedCombination a₁.roleId a₂.roleId = false := by
  intro r aid₁ aid₂ a₁ a₂ hne h₁ h₂ hactive₁ hactive₂ hperson
  have hstart : RoleRegistry.Inv { RoleRegistry.new admin with prohibitedCombinations := prohibited } := by
    refine ⟨fun aid a h => ?_, fun aid a h => ?_, fun roleId role h => ?_⟩
    · cases h
    · cases h
    · cases h
  have h := hsafe.invariant (fun _ _ hsafe h => h.call hsafe) hstart
  exact h.separated aid₂ a₂ h₂ hactive₂ _ (HashMap.mem_entries_iff.mpr h₁) hne hactive₁ hperson

/-! Two roles that exclude each other, and a numbering of assignments. -/

def ceo : RoleDefinition := ⟨1, 500000, none, 50000, true⟩

def auditor : RoleDefinition := ⟨2, 100000, none, 10000, true⟩

def numbered (_ : IdentityId) (_ : RoleId) (counter : Nat) : AssignmentId := BitVec.ofNat _ counter

def twoRoles : RoleRegistry := { RoleRegistry.new 9 with prohibitedCombinations := {(1, 2)} }

/-- The CEO is back after a suspension, while somebody else audits. -/
def someAssignments : List RoleCall :=
  [.grantRole ceo 9, .grantRole auditor 9, .createAssignment 100 1 5 0 9, .suspendAssignment 0 6 9,
    .createAssignment 200 2 6 0 9, .reactivateAssignment 0 9]

theorem duties_stay_separated_after_a_suspension :
    let r := run (RoleRegistry.call numbered) twoRoles someAssignments
    r.getActiveRolesForPerson 100 = [1] ∧ r.getActiveRolesForPerson 200 = [2] ∧
      ∀ aid₁ aid₂ a₁ a₂, aid₁ ≠ aid₂ → r.assignments.lookup aid₁ = some a₁ → r.assignments.lookup aid₂ = some a₂ →
        a₁.status = .active → a₂.status = .active → a₁.personId = a₂.personId →
        a₁.roleId ≠ a₂.roleId ∧ r.isProhibitedCombination a₁.roleId a₂.roleId = false :=
  ⟨by decide +kernel, by decide +kernel,
    duties_stay_separated numbered 9 {(1, 2)} someAssignments (by decide +kernel)⟩

/-- Reactivating makes the CEO an auditor too, or gives them their own role twice. -/
theorem reactivation_combines_prohibited_roles :
    let suspended : List RoleCall :=
      [.grantRole ceo 9, .grantRole auditor 9, .createAssignment 100 1 5 0 9, .suspendAssignment 0 6 9]
    let both := run (RoleRegistry.call numbered) twoRoles
      (suspended ++ [.createAssignment 100 2 6 0 9, .reactivateAssignment 0 9])
    let twice := run (RoleRegistry.call numbered) twoRoles
      (suspended ++ [.createAssignment 100 1 6 0 9, .reactivateAssignment 0 9])
    both.isProhibitedCombination 1 2 = true ∧ both.getActiveRolesForPerson 100 = [1, 2] ∧
      twice.getActiveRolesForPerson 100 = [1, 1] := by
  decide +kernel

end SovereignNetwork.Treasury
