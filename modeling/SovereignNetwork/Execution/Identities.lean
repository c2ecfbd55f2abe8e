import SovereignNetwork.Execution.Types
import SovereignNetwork.Lib.Prog
import SovereignNetwork.Lib.Run
import Mathlib.Logic.Function.Basic

/-!
# Identities and the index of their owners

Identities are stored under the hash of their DID, and a second tree leads from an owner to a DID hash. Registration and
revocation write both trees, each on its own.
-/

namespace SovereignNetwork.Execution

open Lib

/-! ## The trees -/

inductive IdentityType
  | human
  | organization
  | device
  | agent
  deriving DecidableEq

inductive IdentityStatus
  | active
  | suspended
  | revoked
  deriving DecidableEq

structure IdentityConsensus where
  didHash : Hash
  owner : Address
  publicKeyHash : Hash
  didDocumentHash : Hash
  seedCommitment : Option Hash
  identityType : IdentityType
  status : IdentityStatus
  version : Nat
  createdAt : Nat
  registeredAtHeight : Nat
  registrationFee : Nat
  daoFee : Nat
  controlledNodeCount : Nat
  ownedWalletCount : Nat
  attributeCount : Nat
  deriving DecidableEq

structure IdentityAttributeFull where
  name : String
  value : List UInt8
  issuer : Option Address
  expiresAt : Nat
  deriving DecidableEq

structure IdentityMetadata where
  did : String
  displayName : String
  publicKey : List UInt8
  ownershipProof : List UInt8
  controlledNodes : List String
  ownedWallets : List String
  attributes : List IdentityAttributeFull
  deriving DecidableEq

inductive IdentityTree
  | identities
  | identityMetadata
  | identityByOwner
  deriving DecidableEq

inductive IdentityKey
  | identity (didHash : Hash)
  | metadata (didHash : Hash)
  | byOwner (owner : Address)
  deriving DecidableEq

abbrev IdentityKey.Val : IdentityKey → Type
  | .identity _ => IdentityConsensus
  | .metadata _ => IdentityMetadata
  | .byOwner _ => Hash

def IdentityKey.tree : IdentityKey → IdentityTree
  | .identity _ => .identities
  | .metadata _ => .identityMetadata
  | .byOwner _ => .identityByOwner

abbrev IdentityStore := AList IdentityKey.Val

/-! ## The calls -/

abbrev IdentityProg := Prog IdentityKey.Val TxApplyError

def registerIdentity (didHash : Hash) (consensus : IdentityConsensus) (metadata : IdentityMetadata) :
    IdentityProg Unit := do
  if (← Prog.get (.identity didHash)).isSome then
    .fail (.internal s!"Identity already registered: {hexEncode (Bytes.asSlice didHash)}")
  Prog.put (.identity didHash) consensus
  Prog.put (.metadata didHash) metadata
  Prog.put (.byOwner consensus.owner) didHash

/-- The fields that an update must leave as they are. -/
def checkImmutable (existing consensus : IdentityConsensus) : Except TxApplyError Unit :=
  if existing.didHash ≠ consensus.didHash then .error (.internal "Immutable DID hash mismatch")
  else if existing.owner ≠ consensus.owner then .error (.internal "Immutable owner mismatch")
  else if existing.publicKeyHash ≠ consensus.publicKeyHash then .error (.internal "Immutable public key mismatch")
  else if existing.registeredAtHeight ≠ consensus.registeredAtHeight then
    .error (.internal "Immutable registered_at_height mismatch")
  else if existing.identityType ≠ consensus.identityType then .error (.internal "Immutable identity type mismatch")
  else .ok ()

def updateIdentity (didHash : Hash) (consensus : IdentityConsensus) : IdentityProg Unit := do
  match ← Prog.get (.identity didHash) with
  | none => .fail (.internal s!"Cannot update non-existent identity: {hexEncode (Bytes.asSlice didHash)}")
  | some existing =>
    .ofExcept (checkImmutable existing consensus)
    Prog.put (.identity didHash) consensus

def revokeIdentity (didHash : Hash) : IdentityProg Unit := do
  match ← Prog.get (.identity didHash) with
  | none => .fail (.internal s!"Cannot revoke non-existent identity: {hexEncode (Bytes.asSlice didHash)}")
  | some identity =>
    Prog.delete (.identity didHash)
    Prog.delete (.metadata didHash)
    Prog.delete (.byOwner identity.owner)

inductive IdentityCall
  | register (didHash : Hash) (consensus : IdentityConsensus) (metadata : IdentityMetadata)
  | update (didHash : Hash) (consensus : IdentityConsensus)
  | revoke (didHash : Hash)

def IdentityCall.prog : IdentityCall → IdentityProg Unit
  | .register didHash consensus metadata => registerIdentity didHash consensus metadata
  | .update didHash consensus => updateIdentity didHash consensus
  | .revoke didHash => revokeIdentity didHash

/-- A call in a block of its own. Reads see the committed trees, and a failed call has written nothing. -/
def IdentityCall.apply (s : IdentityStore) (call : IdentityCall) : IdentityStore :=
  match call.prog.stage (fun _ committed _ => committed) s ∅ with
  | .ok (_, b) => commitTrees (fun k => some k.tree) [.identities, .identityMetadata, .identityByOwner] s b
  | .error _ => s

/-! ## Owners and their index -/

/-- What the trees say of owners. -/
@[ext] structure OwnerView where
  ownerOf : Hash → Option Address
  index : Address → Option Hash

namespace OwnerView

def register (v : OwnerView) (didHash : Hash) (owner : Address) : OwnerView :=
  ⟨Function.update v.ownerOf didHash (some owner), Function.update v.index owner (some didHash)⟩

def revoke (v : OwnerView) (didHash : Hash) (owner : Address) : OwnerView :=
  ⟨Function.update v.ownerOf didHash none, Function.update v.index owner none⟩

/-- An indexed identity exists and has the owner it is indexed under. -/
def Sound (v : OwnerView) : Prop := ∀ owner didHash, v.index owner = some didHash → v.ownerOf didHash = some owner

/-- Every identity is indexed under its owner. -/
def Complete (v : OwnerView) : Prop := ∀ owner didHash, v.ownerOf didHash = some owner → v.index owner = some didHash

variable {v : OwnerView} {didHash : Hash} {owner : Address}

theorem Sound.register (h : v.Sound) (hfresh : v.ownerOf didHash = none) : (v.register didHash owner).Sound := by
  intro owner' didHash' hindex
  by_cases howner : owner' = owner
  · subst howner
    simp only [OwnerView.register, Function.update_self] at hindex
    cases hindex
    exact Function.update_self ..
  · simp only [OwnerView.register, Function.update_of_ne howner] at hindex
    have hne : didHash' ≠ didHash := by
      rintro rfl
      simp [h _ _ hindex] at hfresh
    exact (Function.update_of_ne hne ..).trans (h _ _ hindex)

theorem Sound.revoke (h : v.Sound) (howned : v.ownerOf didHash = some owner) : (v.revoke didHash owner).Sound := by
  intro owner' didHash' hindex
  by_cases howner : owner' = owner
  · subst howner
    simp [OwnerView.revoke] at hindex
  · simp only [OwnerView.revoke, Function.update_of_ne howner] at hindex
    have hne : didHash' ≠ didHash := by
      rintro rfl
      exact howner (Option.some.inj ((h _ _ hindex).symm.trans howned))
    exact (Function.update_of_ne hne ..).trans (h _ _ hindex)

theorem Complete.register (h : v.Complete) (hfirst : ∀ didHash, v.ownerOf didHash ≠ some owner) :
    (v.register didHash owner).Complete := by
  intro owner' didHash' howned
  by_cases hdid : didHash' = didHash
  · subst hdid
    simp only [OwnerView.register, Function.update_self] at howned
    cases howned
    exact Function.update_self ..
  · simp only [OwnerView.register, Function.update_of_ne hdid] at howned
    have hne : owner' ≠ owner := by
      rintro rfl
      exact hfirst _ howned
    exact (Function.update_of_ne hne ..).trans (h _ _ howned)

theorem Complete.revoke (h : v.Complete) (howned : v.ownerOf didHash = some owner) :
    (v.revoke didHash owner).Complete := by
  intro owner' didHash' howned'
  by_cases hdid : didHash' = didHash
  · subst hdid
    simp [OwnerView.revoke] at howned'
  · simp only [OwnerView.revoke, Function.update_of_ne hdid] at howned'
    -- The index has one entry for each owner, so the owner of another identity is another owner.
    have hne : owner' ≠ owner := by
      rintro rfl
      exact hdid (Option.some.inj ((h _ _ howned').symm.trans (h _ _ howned)))
    exact (Function.update_of_ne hne ..).trans (h _ _ howned')

end OwnerView

/-! ## What the calls do to the owners -/

def ownerView (s : IdentityStore) : OwnerView where
  ownerOf didHash := (s.lookup (.identity didHash)).map (·.owner)
  index owner := s.lookup (.byOwner owner)

theorem lookup_commit (s : IdentityStore) (b : Batch IdentityKey.Val) (k : IdentityKey) :
    (commitTrees (fun k => some k.tree) [.identities, .identityMetadata, .identityByOwner] s b).lookup k =
      latest s b k := by
  rw [lookup_commitTrees, if_pos]
  cases k <;> simp [IdentityKey.tree]

theorem ownerView_of_writes {s s' : IdentityStore} {didHash : Hash} {owner : Address} {identity : Option IdentityConsensus}
    {metadata : Option IdentityMetadata} {indexed : Option Hash}
    (hs' : ∀ k, s'.lookup k = latest s ((((∅ : Batch IdentityKey.Val).insert (.identity didHash) identity).insert
      (.metadata didHash) metadata).insert (.byOwner owner) indexed) k) :
    ownerView s' = ⟨Function.update (ownerView s).ownerOf didHash (identity.map (·.owner)),
      Function.update (ownerView s).index owner indexed⟩ := by
  refine OwnerView.ext (funext fun didHash' => ?_) (funext fun owner' => ?_)
  · simp only [ownerView, hs']
    rw [latest_insert_of_ne (by simp), latest_insert_of_ne (by simp)]
    by_cases h : didHash' = didHash
    · subst h
      rw [latest_insert_self, Function.update_self]
    · rw [latest_insert_of_ne (by simpa using h), Function.update_of_ne h, latest_empty]
  · simp only [ownerView, hs']
    by_cases h : owner' = owner
    · subst h
      rw [latest_insert_self, Function.update_self]
    · rw [latest_insert_of_ne (by simpa using h), latest_insert_of_ne (by simp), latest_insert_of_ne (by simp),
        Function.update_of_ne h, latest_empty]

theorem owner_eq_of_checkImmutable {existing consensus : IdentityConsensus} {u : Unit}
    (h : checkImmutable existing consensus = .ok u) : existing.owner = consensus.owner := by
  by_contra hne
  rw [checkImmutable, if_pos (c := existing.owner ≠ consensus.owner) hne] at h
  split at h <;> cases h

theorem ownerView_apply (s : IdentityStore) (call : IdentityCall) :
    (∃ didHash consensus metadata, call = .register didHash consensus metadata ∧ (ownerView s).ownerOf didHash = none ∧
        ownerView (call.apply s) = (ownerView s).register didHash consensus.owner) ∨
      (∃ didHash owner, (ownerView s).ownerOf didHash = some owner ∧
        ownerView (call.apply s) = (ownerView s).revoke didHash owner) ∨
      ownerView (call.apply s) = ownerView s := by
  cases hcall : call.prog.stage (fun _ committed _ => committed) s ∅ with
  | error e => exact .inr (.inr (by rw [IdentityCall.apply, hcall]))
  | ok r =>
    obtain ⟨⟨⟩, b⟩ := r
    have happly : ∀ k, (call.apply s).lookup k = latest s b k := by
      intro k
      rw [IdentityCall.apply, hcall]
      exact lookup_commit s b k
    cases call with
    | register didHash consensus metadata =>
      simp [IdentityCall.prog, registerIdentity, -AList.insert_empty] at hcall
      obtain ⟨hnone, rfl⟩ := hcall
      exact .inl ⟨didHash, consensus, metadata, rfl, by simp [ownerView, hnone], ownerView_of_writes happly⟩
    | update didHash consensus =>
      simp only [IdentityCall.prog, updateIdentity] at hcall
      cases hidentity : s.lookup (.identity didHash) with
      | none => simp [hidentity] at hcall
      | some existing =>
        simp [hidentity, -AList.insert_empty] at hcall
        obtain ⟨⟨u, hkept⟩, rfl⟩ := hcall
        refine .inr (.inr (OwnerView.ext (funext fun didHash' => ?_) (funext fun owner' => ?_)))
        · by_cases h : didHash' = didHash
          · subst h
            simp only [ownerView, happly, latest_insert_self, hidentity]
            exact congrArg some (owner_eq_of_checkImmutable hkept).symm
          · simp only [ownerView, happly]
            rw [latest_insert_of_ne (by simpa using h), latest_empty]
        · simp only [ownerView, happly]
          rw [latest_insert_of_ne (by simp), latest_empty]
    | revoke didHash =>
      simp only [IdentityCall.prog, revokeIdentity] at hcall
      cases hidentity : s.lookup (.identity didHash) with
      | none => simp [hidentity] at hcall
      | some identity =>
        simp [hidentity, -AList.insert_empty] at hcall
        subst hcall
        exact .inr (.inl ⟨didHash, identity.owner, by simp [ownerView, hidentity], ownerView_of_writes happly⟩)

/-! ## Runs -/

/-- An owner registers only while it owns no identity. -/
def RegistersFirst (s : IdentityStore) (call : IdentityCall) : Prop :=
  match call with
  | .register _ consensus _ => ∀ didHash, (ownerView s).ownerOf didHash ≠ some consensus.owner
  | _ => True

theorem sound_apply (s : IdentityStore) (call : IdentityCall) (h : (ownerView s).Sound) :
    (ownerView (call.apply s)).Sound := by
  obtain ⟨didHash, consensus, metadata, -, hfresh, heq⟩ | ⟨didHash, owner, howned, heq⟩ | heq := ownerView_apply s call
  · exact heq ▸ h.register hfresh
  · exact heq ▸ h.revoke howned
  · exact heq ▸ h

theorem complete_apply (s : IdentityStore) (call : IdentityCall) (hfirst : RegistersFirst s call)
    (h : (ownerView s).Complete) : (ownerView (call.apply s)).Complete := by
  obtain ⟨didHash, consensus, metadata, rfl, -, heq⟩ | ⟨didHash, owner, howned, heq⟩ | heq := ownerView_apply s call
  · exact heq ▸ h.register hfirst
  · exact heq ▸ h.revoke howned
  · exact heq ▸ h

/-- The index leads to an identity of the owner. It leads from every owner of an identity when no owner registers a
second one. -/
theorem owner_index_leads_to_identity (calls : List IdentityCall) :
    let s := run IdentityCall.apply ∅ calls
    (∀ owner didHash, s.lookup (.byOwner owner) = some didHash →
        ∃ identity, s.lookup (.identity didHash) = some identity ∧ identity.owner = owner) ∧
      (Along IdentityCall.apply RegistersFirst ∅ calls → ∀ owner, (s.lookup (.byOwner owner)).isSome ↔
        ∃ didHash identity, s.lookup (.identity didHash) = some identity ∧ identity.owner = owner) := by
  intro s
  have hany : Along IdentityCall.apply (fun _ _ => True) ∅ calls := .of_forall (fun _ _ => trivial) _ calls
  have hsound : (ownerView s).Sound :=
    hany.invariant (I := fun s => (ownerView s).Sound) (fun s call _ => sound_apply s call) fun _ _ h => nomatch h
  have hleads : ∀ owner didHash, s.lookup (.byOwner owner) = some didHash →
      ∃ identity, s.lookup (.identity didHash) = some identity ∧ identity.owner = owner := by
    intro owner didHash h
    exact Option.map_eq_some_iff.mp (hsound owner didHash h)
  refine ⟨hleads, fun hfirst owner => ⟨fun h => ?_, ?_⟩⟩
  · obtain ⟨didHash, h⟩ := Option.isSome_iff_exists.mp h
    exact ⟨didHash, hleads owner didHash h⟩
  · rintro ⟨didHash, identity, hidentity, rfl⟩
    have hcomplete : (ownerView s).Complete :=
      Along.invariant (I := fun s => (ownerView s).Complete) complete_apply hfirst (fun _ _ h => nomatch h)
    exact Option.isSome_of_eq_some (hcomplete _ didHash (Option.map_eq_some_iff.mpr ⟨identity, hidentity, rfl⟩))

def plainIdentity (didHash : Hash) (owner : Address) : IdentityConsensus :=
  ⟨didHash, owner, 0, 0, none, .human, .active, 2, 0, 0, 0, 0, 0, 0, 0⟩

def plainRegister (didHash : Hash) (owner : Address) : IdentityCall :=
  .register didHash (plainIdentity didHash owner) ⟨"", "", [], [], [], [], []⟩

theorem owner_index_of_two_owners :
    let s := run IdentityCall.apply ∅ [plainRegister 1 10, plainRegister 2 20, .revoke 1]
    ∀ owner, (s.lookup (.byOwner owner)).isSome ↔
      ∃ didHash identity, s.lookup (.identity didHash) = some identity ∧ identity.owner = owner := by
  refine (owner_index_leads_to_identity [plainRegister 1 10, plainRegister 2 20, .revoke 1]).2 ⟨?_, ?_, trivial, trivial⟩
  · intro didHash h
    cases h
  · intro didHash h
    obtain ⟨_, _, _, ⟨⟩, -, heq⟩ | ⟨_, _, ⟨⟩, -⟩ | heq := ownerView_apply ∅ (plainRegister 1 10)
    · rw [heq] at h
      simp only [OwnerView.register] at h
      by_cases hdid : didHash = 1
      · rw [hdid, Function.update_self] at h
        exact absurd h (by decide)
      · rw [Function.update_of_ne hdid] at h
        cases h
    · rw [heq] at h
      cases h

/-- An owner of two identities loses its entry of the index with the first that is revoked, and the other identity is not
indexed any more. -/
theorem revocation_hides_second_identity :
    let s := run IdentityCall.apply ∅ [plainRegister 1 10, plainRegister 2 10, .revoke 1]
    s.lookup (.identity 2) = some (plainIdentity 2 10) ∧ s.lookup (.byOwner 10) = none := by
  decide +kernel

end SovereignNetwork.Execution
