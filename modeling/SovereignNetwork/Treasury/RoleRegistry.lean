import Mathlib.Data.Finset.Insert
import Mathlib.Data.List.Sort
import SovereignNetwork.Lib.Except
import SovereignNetwork.Lib.HashMap
import SovereignNetwork.Types

/-!
# The role registry

Roles with their caps, and assignments of persons to roles. The id of an assignment is a hash of the person, the role
and a counter.
-/

namespace SovereignNetwork.Treasury

open Lib

/-! ## Data -/

abbrev RoleId := Bytes 32

abbrev AssignmentId := Bytes 32

structure RoleDefinition where
  roleId : RoleId
  annualCap : Nat
  lifetimeCap : Option Nat
  perEpochCap : Nat
  isActive : Bool
  deriving DecidableEq

inductive AssignmentStatus
  | active
  | suspended
  | terminated
  deriving DecidableEq

structure Assignment where
  assignmentId : AssignmentId
  personId : IdentityId
  roleId : RoleId
  snapAnnualCap : Nat
  snapLifetimeCap : Option Nat
  snapPerEpochCap : Nat
  status : AssignmentStatus
  assignedAtEpoch : Nat
  assignedInYear : Nat
  suspendedAtEpoch : Option Nat
  terminatedAtEpoch : Option Nat
  deriving DecidableEq

inductive AssignmentError
  | alreadyTerminated
  | alreadySuspended
  | notSuspended
  deriving DecidableEq

inductive RoleRegistryError
  | roleNotFound (roleId : RoleId)
  | roleNotActive (roleId : RoleId)
  | assignmentNotFound (assignmentId : AssignmentId)
  | duplicateAssignment (personId : IdentityId) (roleId : RoleId)
  | prohibitedCombination (roleA roleB : RoleId)
  | unauthorized
  | assignmentError (e : AssignmentError)
  | roleAlreadyExists (roleId : RoleId)
  deriving DecidableEq

/-! ## Assignments -/

namespace Assignment

/-- The caps of the role are copied. -/
def new (assignmentId : AssignmentId) (personId : IdentityId) (role : RoleDefinition)
    (currentEpoch currentYear : Nat) : Assignment where
  assignmentId := assignmentId
  personId := personId
  roleId := role.roleId
  snapAnnualCap := role.annualCap
  snapLifetimeCap := role.lifetimeCap
  snapPerEpochCap := role.perEpochCap
  status := .active
  assignedAtEpoch := currentEpoch
  assignedInYear := currentYear
  suspendedAtEpoch := none
  terminatedAtEpoch := none

def suspend (a : Assignment) (currentEpoch : Nat) : Except AssignmentError Assignment := do
  if a.status = .terminated then
    throw .alreadyTerminated
  if a.status = .suspended then
    throw .alreadySuspended
  return { a with status := .suspended, suspendedAtEpoch := some currentEpoch }

def reactivate (a : Assignment) : Except AssignmentError Assignment := do
  if a.status ≠ .suspended then
    throw .notSuspended
  return { a with status := .active, suspendedAtEpoch := none }

def terminate (a : Assignment) (currentEpoch : Nat) : Except AssignmentError Assignment := do
  if a.status = .terminated then
    throw .alreadyTerminated
  return { a with status := .terminated, terminatedAtEpoch := some currentEpoch }

end Assignment

/-! ## The registry -/

structure RoleRegistry where
  roles : HashMap RoleId RoleDefinition
  assignments : HashMap AssignmentId Assignment
  /-- The ids of a person's assignments, in order. -/
  assignmentsByPerson : HashMap IdentityId (List AssignmentId)
  /-- Unordered pairs, the smaller role first. -/
  prohibitedCombinations : Finset (RoleId × RoleId)
  authorizedAdmin : Bytes 32
  nextAssignmentCounter : Nat

namespace RoleRegistry

def new (authorizedAdmin : Bytes 32) : RoleRegistry where
  roles := ∅
  assignments := ∅
  assignmentsByPerson := ∅
  prohibitedCombinations := ∅
  authorizedAdmin := authorizedAdmin
  nextAssignmentCounter := 0

def verifyAdmin (r : RoleRegistry) (caller : Bytes 32) : Except RoleRegistryError Unit := do
  if caller ≠ r.authorizedAdmin then
    throw .unauthorized

def grantRole (r : RoleRegistry) (role : RoleDefinition) (caller : Bytes 32) :
    Except RoleRegistryError RoleRegistry := do
  r.verifyAdmin caller
  if (r.roles.lookup role.roleId).isSome then
    throw (.roleAlreadyExists role.roleId)
  return { r with roles := r.roles.insert role.roleId role }

def revokeRole (r : RoleRegistry) (roleId : RoleId) (caller : Bytes 32) : Except RoleRegistryError RoleRegistry := do
  r.verifyAdmin caller
  let role ← okOr (r.roles.lookup roleId) (.roleNotFound roleId)
  return { r with roles := r.roles.insert roleId { role with isActive := false } }

def isProhibitedCombination (r : RoleRegistry) (roleA roleB : RoleId) : Bool :=
  let pair := if roleA < roleB then (roleA, roleB) else (roleB, roleA)
  pair ∈ r.prohibitedCombinations

def personAssignments (r : RoleRegistry) (personId : IdentityId) : List AssignmentId :=
  (r.assignmentsByPerson.lookup personId).getD []

def getActiveRolesForPerson (r : RoleRegistry) (personId : IdentityId) : List RoleId :=
  (((r.personAssignments personId).filterMap fun aid => r.assignments.lookup aid).filter
    fun a => a.status = .active).map fun a => a.roleId

def insertId (aid : AssignmentId) (ids : List AssignmentId) : List AssignmentId :=
  if aid ∈ ids then ids else ids.orderedInsert (· ≤ ·) aid

def createAssignment (assignmentIdOf : IdentityId → RoleId → Nat → AssignmentId) (r : RoleRegistry)
    (personId : IdentityId) (roleId : RoleId) (currentEpoch currentYear : Nat) (caller : Bytes 32) :
    Except RoleRegistryError (Assignment × RoleRegistry) := do
  r.verifyAdmin caller
  let role ← okOr (r.roles.lookup roleId) (.roleNotFound roleId)
  if ¬ role.isActive then
    throw (.roleNotActive roleId)
  let existingRoles := r.getActiveRolesForPerson personId
  if roleId ∈ existingRoles then
    throw (.duplicateAssignment personId roleId)
  match existingRoles.find? fun existing => r.isProhibitedCombination roleId existing with
  | some existing => throw (.prohibitedCombination roleId existing)
  | none =>
    let assignmentId := assignmentIdOf personId roleId r.nextAssignmentCounter
    let assignment := Assignment.new assignmentId personId role currentEpoch currentYear
    return (assignment, { r with
      assignments := r.assignments.insert assignmentId assignment
      assignmentsByPerson :=
        r.assignmentsByPerson.insert personId (insertId assignmentId (r.personAssignments personId))
      nextAssignmentCounter := wrapU64 (r.nextAssignmentCounter + 1) })

/-- The shape of the calls that change one assignment. -/
def updateAssignment (r : RoleRegistry) (assignmentId : AssignmentId) (caller : Bytes 32)
    (update : Assignment → Except AssignmentError Assignment) : Except RoleRegistryError RoleRegistry := do
  r.verifyAdmin caller
  let assignment ← okOr (r.assignments.lookup assignmentId) (.assignmentNotFound assignmentId)
  let assignment ← (update assignment).mapError .assignmentError
  return { r with assignments := r.assignments.insert assignmentId assignment }

def suspendAssignment (r : RoleRegistry) (assignmentId : AssignmentId) (currentEpoch : Nat) (caller : Bytes 32) :
    Except RoleRegistryError RoleRegistry :=
  r.updateAssignment assignmentId caller fun a => a.suspend currentEpoch

def reactivateAssignment (r : RoleRegistry) (assignmentId : AssignmentId) (caller : Bytes 32) :
    Except RoleRegistryError RoleRegistry :=
  r.updateAssignment assignmentId caller Assignment.reactivate

def terminateAssignment (r : RoleRegistry) (assignmentId : AssignmentId) (currentEpoch : Nat) (caller : Bytes 32) :
    Except RoleRegistryError RoleRegistry :=
  r.updateAssignment assignmentId caller fun a => a.terminate currentEpoch

/-! ## What a call does -/

section

variable {assignmentIdOf : IdentityId → RoleId → Nat → AssignmentId} {r r' : RoleRegistry} {personId : IdentityId}
  {roleId roleA roleB : RoleId} {aid : AssignmentId} {caller : Bytes 32}

theorem isProhibitedCombination_comm (r : RoleRegistry) (roleA roleB : RoleId) :
    r.isProhibitedCombination roleA roleB = r.isProhibitedCombination roleB roleA := by
  unfold isProhibitedCombination
  by_cases hlt : roleA < roleB
  · simp only [hlt, BitVec.lt_asymm hlt, if_true, if_false]
  · by_cases hgt : roleB < roleA
    · simp only [hlt, hgt, if_true, if_false]
    · rw [BitVec.le_antisymm (BitVec.not_lt.mp hgt) (BitVec.not_lt.mp hlt)]

theorem mem_insertId {aid aid' : AssignmentId} {ids : List AssignmentId} :
    aid' ∈ insertId aid ids ↔ aid' = aid ∨ aid' ∈ ids := by
  unfold insertId
  split
  · next hmem =>
    constructor
    · exact .inr
    · rintro (rfl | h)
      · exact hmem
      · exact h
  · exact List.mem_orderedInsert _

theorem mem_getActiveRolesForPerson {a : Assignment} (hindex : aid ∈ r.personAssignments personId)
    (hlookup : r.assignments.lookup aid = some a) (hactive : a.status = .active) :
    a.roleId ∈ r.getActiveRolesForPerson personId := by
  refine List.mem_map.mpr ⟨a, List.mem_filter.mpr ⟨List.mem_filterMap.mpr ⟨aid, hindex, hlookup⟩, ?_⟩, rfl⟩
  exact decide_eq_true hactive

theorem createAssignment_eq_ok {currentEpoch currentYear : Nat} {assignment : Assignment}
    (h : r.createAssignment assignmentIdOf personId roleId currentEpoch currentYear caller = .ok (assignment, r')) :
    ∃ role, r.roles.lookup roleId = some role ∧ roleId ∉ r.getActiveRolesForPerson personId ∧
      (∀ existing ∈ r.getActiveRolesForPerson personId, r.isProhibitedCombination roleId existing = false) ∧
      assignment = Assignment.new (assignmentIdOf personId roleId r.nextAssignmentCounter) personId role currentEpoch
        currentYear ∧
      r' = { r with
        assignments := r.assignments.insert assignment.assignmentId assignment
        assignmentsByPerson :=
          r.assignmentsByPerson.insert personId (insertId assignment.assignmentId (r.personAssignments personId))
        nextAssignmentCounter := wrapU64 (r.nextAssignmentCounter + 1) } := by
  simp only [createAssignment, bind_eq_ok, guard_eq_ok, okOr_eq_ok] at h
  obtain ⟨-, -, role, hrole, -, hduplicate, h⟩ := h
  split at h
  · cases h
  · next hfind =>
    cases h
    refine ⟨role, hrole, hduplicate, fun existing hmem => ?_, rfl, rfl⟩
    simpa using List.find?_eq_none.mp hfind existing hmem

theorem updateAssignment_eq_ok {update : Assignment → Except AssignmentError Assignment}
    (h : r.updateAssignment aid caller update = .ok r') :
    ∃ a a', r.assignments.lookup aid = some a ∧ update a = .ok a' ∧
      r' = { r with assignments := r.assignments.insert aid a' } := by
  simp only [updateAssignment, bind_eq_ok, okOr_eq_ok, mapError_eq_ok, pure_eq_ok] at h
  obtain ⟨-, -, a, hlookup, a', hupdate, rfl⟩ := h
  exact ⟨a, a', hlookup, hupdate, rfl⟩

end

end RoleRegistry

end SovereignNetwork.Treasury
