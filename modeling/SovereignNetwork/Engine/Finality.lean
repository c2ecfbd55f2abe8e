import SovereignNetwork.Engine.Quorums
import SovereignNetwork.QuorumProof.Lemmas.Accept

/-!
# The quorum proof of a commit callback

Finalization counts the commit votes of every round; the proof keeps one attestation for each validator.
The two agree when no validator has commit votes for the proposal in two rounds.
-/

namespace SovereignNetwork.Engine

open Lib Validators

variable {X : Externals} {A : Origin → EngineState → ConsensusProposal → Prop}
  {B : ConsensusVote → Prop} {s s' : EngineState} {pid : Hash} {manager : ValidatorManager}

/-! ## The keys of the validator set -/

theorem nodup_registryOf (m : ValidatorManager) : ((registryOf m).map Prod.fst).Nodup := by
  rw [registryOf, List.map_map]
  exact m.validators.nodupKeys

/-- The consensus keys of the active validators, as a verifier of quorum proofs takes them. -/
def activeKeys (m : ValidatorManager) : HashMap Hash DilithiumPk :=
  ⟨((registryOf m).filter fun e => e.2.2.2).map fun e => ⟨e.1, e.2.2.1⟩, by
    have hsub := (List.filter_sublist (p := fun e => e.2.2.2) (l := registryOf m)).map Prod.fst
    have hnd := (nodup_registryOf m).sublist hsub
    simpa [List.NodupKeys, List.keys, Function.comp_def] using hnd⟩

/-- The registry stores every validator under its identity and fits the `u32` of its limit. -/
structure WellFormed (m : ValidatorManager) : Prop where
  identity : ∀ id v, m.validators.lookup id = some v → v.identity = id
  size : m.validators.entries.length < 2 ^ 32

theorem activeIds_eq_map (s : EngineState) :
    s.activeIds = ((registryOf s.validatorManager).filter fun e => e.2.2.2).map fun e => e.2.1 := by
  unfold EngineState.activeIds ValidatorManager.getActiveValidators HashMap.values registryOf
  induction s.validatorManager.validators.entries with
  | nil => rfl
  | cons e es ih =>
    by_cases he : e.2.canParticipate = true
    · simpa [he] using ih
    · simpa [he] using ih

theorem length_keys_activeKeys (hs : s.Sealed manager) : (activeKeys manager).keys.length = s.activeCount := by
  rw [activeCount_eq_length, activeIds_eq_map, hs.registry]
  simp [activeKeys, AList.keys, List.keys]

theorem EngineState.Sealed.activeCount_lt (hs : s.Sealed manager) (hwf : WellFormed manager) :
    s.activeCount < 2 ^ 32 := by
  rw [activeCount_eq_length, activeIds_eq_map, hs.registry, List.length_map]
  refine Nat.lt_of_le_of_lt (List.length_filter_le _ _) ?_
  rw [registryOf, List.length_map]
  exact hwf.size

theorem EngineState.Sealed.lookup_activeKeys {id : IdentityId} {key : DilithiumPk} (hs : s.Sealed manager)
    (hwf : WellFormed manager) (hmem : id ∈ s.activeIds) (hkey : s.keyOf id = some key) :
    (activeKeys manager).lookup id = some key := by
  have hkeys : EngineState.keyOf (.new none none manager) id = s.keyOf id := keyOf_eq_of_registryOf hs.registry.symm id
  have hkey' : (manager.validators.lookup id).map Validator.consensusKey = some key := hkeys.trans hkey
  obtain ⟨v, hv, rfl⟩ := Option.map_eq_some_iff.mp hkey'
  rw [activeIds_eq_map, hs.registry] at hmem
  obtain ⟨e, he, hid⟩ := List.mem_map.mp hmem
  obtain ⟨hreg, hactive⟩ := List.mem_filter.mp he
  obtain ⟨⟨id', v'⟩, hentry, rfl⟩ := List.mem_map.mp hreg
  have hl := HashMap.mem_entries_iff.mp hentry
  obtain rfl : id' = id := (hwf.identity id' v' hl).symm.trans hid
  rw [hl] at hv
  cases hv
  refine HashMap.mem_entries_iff.mp (List.mem_map.mpr ⟨_, List.mem_filter.mpr ⟨hreg, hactive⟩, rfl⟩)

/-! ## The attestations -/

/-- The commit votes that finalization counts for a proposal. -/
def EngineState.commitEntries (s : EngineState) (pid : Hash) : List (Σ _ : VotePoolKey, ConsensusVote × Hash) :=
  s.votePool.entries.filter fun e => e.1.height == s.height && e.1.voteType == .commit && e.2.2 == pid

theorem length_commitEntries : (s.commitEntries pid).length = s.countCommitsFor s.height pid := by
  unfold EngineState.commitEntries EngineState.countCommitsFor EngineState.countVotes
  rw [List.countP_eq_length_filter]
  simp

theorem mem_commitEntries {e : Σ _ : VotePoolKey, ConsensusVote × Hash} :
    e ∈ s.commitEntries pid ↔
      e.1.height = s.height ∧ e.1.voteType = .commit ∧ s.votePool.lookup e.1 = some (e.2.1, pid) ∧ e.2.2 = pid := by
  obtain ⟨k, vote, pid'⟩ := e
  simp only [EngineState.commitEntries, List.mem_filter, Bool.and_eq_true, beq_iff_eq]
  constructor
  · rintro ⟨hmem, ⟨hh, ht⟩, rfl⟩
    exact ⟨hh, ht, HashMap.mem_entries_iff.mp hmem, rfl⟩
  · rintro ⟨hh, ht, hl, rfl⟩
    exact ⟨HashMap.mem_entries_iff.mpr hl, ⟨hh, ht⟩, rfl⟩

/-- All commit votes carry signatures of the Dilithium5 length. -/
def EngineState.FullSignatures (s : EngineState) : Prop :=
  ∀ k x, k.voteType = .commit → s.votePool.lookup k = some x → x.1.signature.signature.length = 4595

def EngineState.CommitsKeyed (s : EngineState) : Prop :=
  ∀ k x, k.voteType = .commit → s.votePool.lookup k = some x → x.1.key = k

theorem nodup_commitEntries (hsingle : s.SingleRound .commit s.height pid) :
    ((s.commitEntries pid).map fun e => e.1.validatorId).Nodup := by
  have hkeys : ((s.commitEntries pid).map Sigma.fst).Nodup :=
    List.Nodup.sublist (List.filter_sublist.map _) s.votePool.nodupKeys
  rw [show (fun e : Σ _ : VotePoolKey, ConsensusVote × Hash => e.1.validatorId) =
    VotePoolKey.validatorId ∘ Sigma.fst from rfl, ← List.map_map]
  refine List.Nodup.map_on ?_ hkeys
  intro k hk k' hk' heq
  obtain ⟨e, he, rfl⟩ := List.mem_map.mp hk
  obtain ⟨e', he', rfl⟩ := List.mem_map.mp hk'
  obtain ⟨hh, ht, hl, -⟩ := mem_commitEntries.mp he
  obtain ⟨hh', ht', hl', -⟩ := mem_commitEntries.mp he'
  obtain ⟨⟨h, r, t, id⟩, x⟩ := e
  obtain ⟨⟨h', r', t', id'⟩, x'⟩ := e'
  obtain rfl : id = id' := heq
  simp only at hh ht hl hh' ht' hl'
  subst hh ht hh' ht'
  rw [hsingle id r r' ⟨_, hl⟩ ⟨_, hl'⟩]

theorem attestation?_eq_some {vote : ConsensusVote} (h : vote.signature.signature.length = 4595) :
    vote.attestation? = some ⟨vote.voter, vote.id, vote.proposalId, vote.round, ⟨vote.signature.signature, h⟩,
      vote.signature.publicKey⟩ := by
  simp [ConsensusVote.attestation?, h]

theorem commitAttestations_perm (hkeyed : s.CommitsKeyed) (hfull : s.FullSignatures)
    (hsingle : s.SingleRound .commit s.height pid) :
    (s.commitAttestations pid).Perm ((s.commitEntries pid).filterMap fun e => e.2.1.attestation?) ∧
      ((s.commitAttestations pid).map CommitAttestation.validatorId).Nodup ∧
      (s.commitAttestations pid).length = s.countCommitsFor s.height pid := by
  have hids : ((s.commitEntries pid).filterMap fun e => e.2.1.attestation?).map CommitAttestation.validatorId =
      (s.commitEntries pid).map fun e => e.1.validatorId := by
    have hall : ∀ e ∈ s.commitEntries pid, e.2.1.attestation?.map CommitAttestation.validatorId = some e.1.validatorId := by
      intro e he
      obtain ⟨hh, ht, hl, -⟩ := mem_commitEntries.mp he
      have hvoter : e.2.1.voter = e.1.validatorId := congrArg VotePoolKey.validatorId (hkeyed _ _ ht hl)
      rw [attestation?_eq_some (hfull _ _ ht hl), Option.map_some]
      exact congrArg some hvoter
    rw [List.map_filterMap, List.filterMap_congr hall, ← List.filterMap_eq_map]
    rfl
  have hperm := List.perm_insertionSort (fun a b : CommitAttestation => a.validatorId ≤ b.validatorId)
    ((s.commitEntries pid).filterMap fun e => e.2.1.attestation?)
  have hnd : ((List.insertionSort (fun a b : CommitAttestation => a.validatorId ≤ b.validatorId)
      ((s.commitEntries pid).filterMap fun e => e.2.1.attestation?)).map CommitAttestation.validatorId).Nodup := by
    rw [(hperm.map _).nodup_iff, hids]
    exact nodup_commitEntries hsingle
  -- a list without repeated validators loses nothing to `dedup_by_key`
  have heq : s.commitAttestations pid = List.insertionSort (fun a b : CommitAttestation => a.validatorId ≤ b.validatorId)
      ((s.commitEntries pid).filterMap fun e => e.2.1.attestation?) := by
    refine List.destutter_of_isChain _ _ ?_
    exact (List.pairwise_map.mp hnd).isChain
  rw [heq]
  refine ⟨hperm, hnd, ?_⟩
  rw [← length_commitEntries, hperm.length_eq, ← List.length_map (f := CommitAttestation.validatorId), hids,
    List.length_map]

/-! ## Callbacks -/

/-- The state in which the engine built the proof of a callback. Its commit votes are still in the pool. -/
structure BuiltIn (s₀ s : EngineState) (call : CommitCallback) : Prop where
  registry : registryOf s.validatorManager = registryOf s₀.validatorManager
  height : call.height = s₀.height
  proof : call.proof = s₀.quorumProof call.proposal.id
  quorum : hasSupermajority (s₀.countCommitsFor s₀.height call.proposal.id) s₀.activeCount = true
  commits : ∀ k x, k.voteType = .commit → s₀.votePool.lookup k = some x → s.votePool.lookup k = some x

def EngineState.CallbacksBuilt (manager : ValidatorManager) (s : EngineState) : Prop :=
  ∀ call, .commitCallback call ∈ s.log → ∃ s₀, s₀.Sealed manager ∧ BuiltIn s₀ s call

theorem EngineState.CallbacksBuilt.transition (hseal : s.Sealed manager) (h : Transition X A B s s')
    (hs : s.CallbacksBuilt manager) : s'.CallbacksBuilt manager := by
  intro call hcall
  have hkeep : ∀ k x, k.voteType = .commit → s.votePool.lookup k = some x → s'.votePool.lookup k = some x :=
    fun k x ht hl => h.lookup (.inl (by rw [ht]; decide)) hl
  rcases h.log_cases hcall with hold | hnew
  · obtain ⟨s₀, hseal₀, hb⟩ := hs call hold
    exact ⟨s₀, hseal₀, h.registry.trans hb.registry, hb.height, hb.proof, hb.quorum,
      fun k x ht hl => hkeep k x ht (hb.commits k x ht hl)⟩
  · cases hnew with
    | callback succeeded hstep hquorum hpending =>
      exact ⟨s, hseal, h.registry, rfl, rfl, hquorum, hkeep⟩

theorem Reached.callbacksBuilt (h : Reached X manager s) : s.CallbacksBuilt manager := by
  refine (h.invariant (I := fun s => s.Sealed manager ∧ s.CallbacksBuilt manager) ?_ ?_ ?_).2
  · rintro s s' hc ⟨hseal, hs⟩
    refine ⟨hseal.move hc, fun call hcall => ?_⟩
    obtain ⟨s₀, hseal₀, hb⟩ := hs call (hc.log ▸ hcall)
    exact ⟨s₀, hseal₀, hc.registry.trans hb.registry, hb.height, hb.proof, hb.quorum,
      fun k x ht hl => hc.pool ▸ hb.commits k x ht hl⟩
  · rintro B s s' ht ⟨hseal, hs⟩
    exact ⟨hseal.transition ht, hs.transition hseal ht⟩
  · intro identity keypair
    exact ⟨sealed_new identity keypair, fun call hcall => absurd hcall List.not_mem_nil⟩

theorem Reached.callback_quorum (h : Reached X manager s) {call : CommitCallback} (hcall : .commitCallback call ∈ s.log) :
    hasSupermajority (s.countCommitsFor call.height call.proposal.id) s.activeCount = true := by
  obtain ⟨s₀, -, hb⟩ := h.callbacksBuilt call hcall
  rw [hb.height]
  refine hasSupermajority_countVotes hb.registry ?_ hb.quorum
  rintro r id - ⟨vote, hl⟩
  exact ⟨vote, hb.commits _ _ rfl hl⟩

/-- The signature scheme accepts what it signs. -/
def Externals.SignsCorrectly (X : Externals) : Prop :=
  ∀ key data signature, X.sign key data = .ok signature → X.verify data signature key = .ok true

theorem EngineState.ValidEntry.verify {k : VotePoolKey} {vote : ConsensusVote} (hsign : X.SignsCorrectly)
    (h : s.ValidEntry X k vote pid) :
    X.verify vote.envelope vote.signature.signature vote.signature.publicKey = .ok true := by
  rcases h.origin with ⟨-, hverify⟩ | ⟨-, hsigned⟩
  · unfold Externals.verifySignature at hverify
    split at hverify
    · rename_i valid hv
      rw [hv, hverify]
    · cases hverify
  · exact hsign _ _ _ hsigned

theorem EngineState.ValidEntry.mem_activeIds {k : VotePoolKey} {vote : ConsensusVote}
    (hlocal : ∀ id, s.validatorIdentity = some id → id ∈ s.activeIds) (h : s.ValidEntry X k vote pid) :
    k.validatorId ∈ s.activeIds := by
  rcases h.origin with ⟨hmem, -⟩ | ⟨hid, -⟩
  · exact hmem
  · exact hlocal _ hid

theorem sound_of_builtIn {s₀ : EngineState} {call : CommitCallback} (hsign : X.SignsCorrectly)
    (hwf : WellFormed manager) (hseal : s.Sealed manager) (hvalid : s.PoolValid X)
    (hlocal : ∀ id, s.validatorIdentity = some id → id ∈ s.activeIds) (hfull : s.FullSignatures)
    (hsingle : s.SingleRound .commit call.height call.proposal.id) (hseal₀ : s₀.Sealed manager)
    (hb : BuiltIn s₀ s call) :
    call.proof.Sound X.verify (activeKeys manager) ∧
      ∀ att ∈ call.proof.attestations, att.validatorId ∈ s.activeIds := by
  have hcount : s₀.activeCount = s.activeCount := (activeCount_eq_of_registryOf hb.registry).symm
  have hkeyed₀ : s₀.CommitsKeyed := fun k x ht hl => (hvalid k x.1 x.2 (hb.commits k x ht hl)).key
  have hfull₀ : s₀.FullSignatures := fun k x ht hl => hfull k x ht (hb.commits k x ht hl)
  have hsingle₀ : s₀.SingleRound .commit s₀.height call.proposal.id := by
    rintro id r r' ⟨vote, hl⟩ ⟨vote', hl'⟩
    rw [hb.height] at hsingle
    exact hsingle id r r' ⟨vote, hb.commits _ _ rfl hl⟩ ⟨vote', hb.commits _ _ rfl hl'⟩
  obtain ⟨hperm, hnd, hlen⟩ := commitAttestations_perm hkeyed₀ hfull₀ hsingle₀
  -- every attestation is that of a valid commit vote of the pool
  have hatt : ∀ att ∈ s₀.commitAttestations call.proposal.id, ∃ vote, vote.attestation? = some att ∧
      vote.height = s₀.height ∧ vote.voteType = .commit ∧ s.ValidEntry X vote.key vote call.proposal.id := by
    intro att hmem
    obtain ⟨e, he, hatt⟩ := List.mem_filterMap.mp (hperm.mem_iff.mp hmem)
    obtain ⟨hh, ht, hl, -⟩ := mem_commitEntries.mp he
    have hentry := hvalid _ _ _ (hb.commits _ _ ht hl)
    rw [← hentry.key] at hh ht hentry
    exact ⟨e.2.1, hatt, hh, ht, hentry⟩
  have hids : ∀ att ∈ s₀.commitAttestations call.proposal.id, att.validatorId ∈ s.activeIds ∧
      s.keyOf att.validatorId = some att.publicKey ∧
      X.verify (BftQuorumProof.reconstructVoteEnvelope att s₀.height) att.signature.1 att.publicKey = .ok true := by
    intro att hmem
    obtain ⟨vote, hatt, hh, ht, hentry⟩ := hatt att hmem
    unfold ConsensusVote.attestation? at hatt
    split at hatt
    · cases hatt
      refine ⟨hentry.mem_activeIds hlocal, hentry.registered, ?_⟩
      have hverify := hentry.verify hsign
      rw [ConsensusVote.envelope, ht, hh] at hverify
      exact hverify
    · cases hatt
  have hkeys := length_keys_activeKeys hseal₀
  rw [hb.proof]
  refine ⟨⟨?_, ?_, hnd, ?_, ?_⟩, fun att hmem => (hids att hmem).1⟩
  · rw [hkeys]
    exact Nat.mod_eq_of_lt (hseal₀.activeCount_lt hwf)
  · rw [hkeys]
    exact hlen ▸ hb.quorum
  · intro att hmem
    exact hseal.lookup_activeKeys hwf (hids att hmem).1 (hids att hmem).2.1
  · intro att hmem
    exact (hids att hmem).2.2

/-- If no validator has commit votes for the proposal in two rounds, the proof of its callback holds attestations
of a supermajority of distinct validators of the snapshot, and `verify_quorum_proof` accepts it. -/
theorem callback_proof_verifies (hsign : X.SignsCorrectly) (hwf : WellFormed manager) (hs : Reached X manager s)
    (hlocal : ∀ id, s.validatorIdentity = some id → id ∈ s.activeIds) (hfull : s.FullSignatures)
    {call : CommitCallback} (hcall : call ∈ s.commitCallbacks)
    (hsingle : s.SingleRound .commit call.height call.proposal.id) :
    hasSupermajority call.proof.attestations.length s.activeCount = true ∧
      (call.proof.attestations.map CommitAttestation.validatorId).Nodup ∧
      (∀ att ∈ call.proof.attestations, ∀ snapshot ∈ s.validatorSetHistory, att.validatorId ∈ snapshot.validators) ∧
      verifyQuorumProof X.verify call.proof (activeKeys manager) = .ok () := by
  obtain ⟨s₀, hseal₀, hb⟩ := hs.callbacksBuilt call (EngineState.mem_commitCallbacks.mp hcall)
  obtain ⟨hsound, hmem⟩ := sound_of_builtIn hsign hwf hs.isSealed hs.poolValid hlocal hfull hsingle hseal₀ hb
  refine ⟨?_, hsound.distinct, ?_, verifyQuorumProof_ok_iff.mpr hsound⟩
  · rw [← length_keys_activeKeys hs.isSealed]
    exact hsound.quorum
  · intro att hatt snapshot hsnapshot
    rw [hs.isSealed.history snapshot hsnapshot]
    exact hmem att hatt

/-! ## One validator finalizes alone -/

def commitThrice : List Input :=
  [.start, .propose (proposalOf 2 0 7), .vote (voteOf 4 .commit 0 7), .vote (voteOf 4 .commit 1 7),
    .vote (voteOf 4 .commit 2 7)]

/-- The callback succeeds with the attestation of a single validator of four. -/
theorem callback_with_one_attestation :
    ∃ call ∈ (runOfOne commitThrice).commitCallbacks, call.succeeded = true ∧
      hasSupermajority call.proof.attestations.length (runOfOne commitThrice).activeCount = false ∧
      (verifyQuorumProof zeroScheme.verify call.proof (activeKeys fourValidators)).isOk = false := by
  decide +kernel

def commitOnce : List Input :=
  [.start, .propose (proposalOf 2 0 7), .vote (voteOf 2 .commit 0 7), .vote (voteOf 3 .commit 0 7),
    .vote (voteOf 4 .commit 0 7)]

theorem wellFormed_fourValidators : WellFormed fourValidators := by
  have hids : ∀ e ∈ fourValidators.validators.entries, e.2.identity = e.1 := by decide +kernel
  exact ⟨fun id v hl => hids ⟨id, v⟩ (HashMap.mem_entries_iff.mpr hl), by decide +kernel⟩

theorem callback_proof_of_three_verifies :
    ∃ call ∈ (runOfOne commitOnce).commitCallbacks,
      hasSupermajority call.proof.attestations.length (runOfOne commitOnce).activeCount = true ∧
      (call.proof.attestations.map CommitAttestation.validatorId).Nodup ∧
      (∀ att ∈ call.proof.attestations, ∀ snapshot ∈ (runOfOne commitOnce).validatorSetHistory,
        att.validatorId ∈ snapshot.validators) ∧
      verifyQuorumProof zeroScheme.verify call.proof (activeKeys fourValidators) = .ok () := by
  obtain ⟨call, hcall, hh, hp⟩ : ∃ call ∈ (runOfOne commitOnce).commitCallbacks,
      call.height = 1 ∧ call.proposal.id = 7 := by decide +kernel
  have hsingle : (runOfOne commitOnce).SingleRound .commit 1 7 := by decide +kernel
  have hlocal : (runOfOne commitOnce).validatorIdentity = some 1 ∧ 1 ∈ (runOfOne commitOnce).activeIds := by
    decide +kernel
  have hfull : ∀ e ∈ (runOfOne commitOnce).votePool.entries, e.2.1.signature.signature.length = 4595 := by
    decide +kernel
  refine ⟨call, hcall, callback_proof_verifies (fun _ _ _ _ => rfl) wellFormed_fourValidators
    (reached_runOfOne commitOnce) ?_ ?_ hcall (by rw [hh, hp]; exact hsingle)⟩
  · intro id hid
    rw [hlocal.1] at hid
    cases hid
    exact hlocal.2
  · intro k x _ hl
    exact hfull ⟨k, x⟩ (HashMap.mem_entries_iff.mpr hl)

end SovereignNetwork.Engine
