import SovereignNetwork.Engine.Lemmas.Frame

/-!
# The votes of the pool
-/

namespace SovereignNetwork.Engine

open Lib Validators

variable {X : Externals} {A : Origin → EngineState → ConsensusProposal → Prop}
  {B : ConsensusVote → Prop} {s s' : EngineState}

/-- A state of a run of an engine that starts with the validators of `manager`. -/
def Reached (X : Externals) (manager : ValidatorManager) (s : EngineState) : Prop :=
  ∃ identity keypair events, s = run (step X) (.new identity keypair manager) events

theorem Reached.invariant {I : EngineState → Prop} {manager : ValidatorManager} (h : Reached X manager s)
    (hmove : ∀ s s', Carried s s' → I s → I s')
    (htrans : ∀ {B : ConsensusVote → Prop} s s', Transition X (fun _ _ _ => True) B s s' → I s → I s')
    (hnew : ∀ identity keypair, I (.new identity keypair manager)) : I s := by
  obtain ⟨identity, keypair, events, rfl⟩ := h
  exact run_invariant hmove htrans (hnew identity keypair) events

/-! ## The registry and the snapshots -/

/-- Every snapshot is the set of active validators, which no event changes. -/
structure EngineState.Sealed (manager : ValidatorManager) (s : EngineState) : Prop where
  registry : registryOf s.validatorManager = registryOf manager
  history : ∀ snapshot ∈ s.validatorSetHistory, snapshot.validators = s.activeIds

theorem EngineState.Sealed.move {manager : ValidatorManager} (hc : Carried s s') (hs : s.Sealed manager) :
    s'.Sealed manager := by
  refine ⟨hc.registry.trans hs.registry, fun snapshot hmem => ?_⟩
  rw [activeIds_eq_of_registryOf hc.registry]
  exact (hc.history snapshot hmem).elim (hs.history snapshot) id

theorem EngineState.Sealed.transition {manager : ValidatorManager} (h : Transition X A B s s')
    (hs : s.Sealed manager) : s'.Sealed manager := by
  refine ⟨h.registry.trans hs.registry, fun snapshot hmem => ?_⟩
  rw [activeIds_eq_of_registryOf h.registry]
  exact (h.history snapshot hmem).elim (hs.history snapshot) id

theorem sealed_new {manager : ValidatorManager} (identity : Option IdentityId) (keypair : Option DilithiumPk) :
    (EngineState.new identity keypair manager).Sealed manager :=
  ⟨rfl, fun _ hmem => absurd hmem List.not_mem_nil⟩

theorem Reached.isSealed {manager : ValidatorManager} (h : Reached X manager s) : s.Sealed manager :=
  h.invariant (fun _ _ hc hs => hs.move hc) (fun _ _ ht hs => hs.transition ht) sealed_new

theorem EngineState.Sealed.mem_activeIds {manager : ValidatorManager} {id : IdentityId} {h : Nat}
    (hs : s.Sealed manager) (hmember : s.isValidatorMember id h = true) : id ∈ s.activeIds := by
  unfold EngineState.isValidatorMember EngineState.validatorSetForHeight at hmember
  cases hfind : s.validatorSetHistory.find? fun snapshot => snapshot.height = h with
  | none => simp [hfind] at hmember
  | some snapshot =>
    simp only [hfind, Option.map_some, decide_eq_true_eq] at hmember
    rw [← hs.history snapshot (List.mem_of_find?_eq_some hfind)]
    exact hmember

/-! ## The votes of the pool -/

/-- What is known of a vote in the pool: it is stored under its own key, its signer is registered with the
key it names, and it was either checked on receipt or signed here. -/
structure EngineState.ValidEntry (X : Externals) (s : EngineState) (k : VotePoolKey) (vote : ConsensusVote)
    (pid : Hash) : Prop where
  key : vote.key = k
  proposalId : vote.proposalId = pid
  registered : s.keyOf k.validatorId = some vote.signature.publicKey
  origin : k.validatorId ∈ s.activeIds ∧ X.verifySignature vote.envelope vote.signature = true ∨
    s.validatorIdentity = some k.validatorId ∧ X.sign vote.signature.publicKey vote.envelope = .ok vote.signature.signature

def EngineState.PoolValid (X : Externals) (s : EngineState) : Prop :=
  ∀ k vote pid, s.votePool.lookup k = some (vote, pid) → s.ValidEntry X k vote pid

theorem EngineState.ValidEntry.mono {k : VotePoolKey} {vote : ConsensusVote} {pid : Hash}
    (hreg : registryOf s'.validatorManager = registryOf s.validatorManager)
    (hid : s.validatorIdentity = none ∨ s'.validatorIdentity = s.validatorIdentity) (h : s.ValidEntry X k vote pid) :
    s'.ValidEntry X k vote pid where
  key := h.key
  proposalId := h.proposalId
  registered := by rw [keyOf_eq_of_registryOf hreg]; exact h.registered
  origin := by
    rw [activeIds_eq_of_registryOf hreg]
    rcases h.origin with horigin | ⟨hsome, hsigned⟩
    · exact .inl horigin
    · rcases hid with hid | hid
      · rw [hid] at hsome; cases hsome
      · exact .inr ⟨hid.trans hsome, hsigned⟩

theorem OwnVote.validEntry {pid : Hash} {t : VoteType} {vote : ConsensusVote} (h : OwnVote X s pid t vote) :
    s.ValidEntry X vote.key vote pid :=
  ⟨rfl, h.proposalId, h.key, .inr ⟨h.identity, h.signed⟩⟩

theorem verifyVoteSignature_ok {vote : ConsensusVote} (h : s.verifyVoteSignature X vote = true) :
    s.keyOf vote.voter = some vote.signature.publicKey ∧ X.verifySignature vote.envelope vote.signature = true := by
  unfold EngineState.verifyVoteSignature at h
  split at h
  · cases h
  · split at h
    · cases h
    · rename_i validator hv
      split at h
      · cases h
      · split at h
        · cases h
        · rename_i hkey
          simp only [ne_eq, not_not] at hkey
          exact ⟨by simp [EngineState.keyOf, hv, hkey], h⟩

/-- A vote that is written to the pool: the engine's own, or a received one that passed the checks. -/
def Written (X : Externals) (B : ConsensusVote → Prop) (s s' : EngineState) (vote : ConsensusVote) : Prop :=
  Casts X s vote ∧ .voteCast vote ∈ s'.log ∨
    B vote ∧ s.verifyVoteSignature X vote = true ∧ s.isValidatorMember vote.voter vote.height = true

theorem Transition.pool_cases {k : VotePoolKey} {vote : ConsensusVote} {pid : Hash} (h : Transition X A B s s')
    (hl : s'.votePool.lookup k = some (vote, pid)) :
    s.votePool.lookup k = some (vote, pid) ∨ k = vote.key ∧ pid = vote.proposalId ∧ Written X B s s' vote := by
  have hinsert : ∀ {k' : VotePoolKey} {y : ConsensusVote × Hash},
      (s.votePool.insert k' y).lookup k = some (vote, pid) →
      s.votePool.lookup k = some (vote, pid) ∨ k = k' ∧ (vote, pid) = y := by
    intro k' y hy
    by_cases hk : k = k'
    · subst hk
      rw [AList.lookup_insert, Option.some.injEq] at hy
      exact .inr ⟨rfl, hy.symm⟩
    · rw [AList.lookup_insert_ne hk] at hy
      exact .inl hy
  have hown : ∀ {v : ConsensusVote}, Casts X s v → .voteCast v ∈ s'.log → k = s.ownKey v.voteType v.voter →
      (vote, pid) = (v, v.proposalId) → k = vote.key ∧ pid = vote.proposalId ∧ Written X B s s' vote := by
    rintro v hcast hlog rfl heq
    cases heq
    exact ⟨hcast.own.ownKey_eq, rfl, .inl ⟨hcast, hlog⟩⟩
  have hlast : ∀ {eff : Effect}, eff ∈ s.log ++ [eff] := by simp
  cases h with
  | quiet h => rw [h.pool] at hl; exact .inl hl
  | prevote hstep hpid hvote =>
    refine (hinsert hl).imp_right fun h => hown (.prevote (ownVote_ok hvote) hpid (.inl hstep)) hlast h.1 h.2
  | latePrevote hstep hf hpid hvote =>
    have ho := ownVote_ok hvote
    refine (hinsert hl).imp_right fun h => hown (.prevote ho hpid (.inr ⟨hstep, ho.lookup_none hf⟩)) hlast h.1 h.2
  | precommit hstep hf hquorum hvote =>
    have ho := ownVote_ok hvote
    exact (hinsert hl).imp_right fun h => hown (.precommit ho (ho.lookup_none hf) hquorum) hlast h.1 h.2
  | commit hstep hf hquorum hvote =>
    have ho := ownVote_ok hvote
    exact (hinsert hl).imp_right fun h => hown (.commit ho (ho.lookup_none hf) hquorum) hlast h.1 h.2
  | store hheight hsig hmember hkey hreceived =>
    refine (hinsert hl).imp_right ?_
    rintro ⟨rfl, heq⟩
    cases heq
    exact ⟨rfl, rfl, .inr ⟨hreceived, hsig, hmember⟩⟩
  | _ => exact .inl hl

theorem EngineState.PoolValid.transition {manager : ValidatorManager} (hseal : s.Sealed manager)
    (h : Transition X A B s s') (hs : s.PoolValid X) : s'.PoolValid X := by
  intro k vote pid hl
  refine .mono h.registry h.identity ?_
  rcases h.pool_cases hl with hl | ⟨rfl, rfl, hcast | ⟨_, hsig, hmember⟩⟩
  · exact hs k vote pid hl
  · exact hcast.1.own.validEntry
  · obtain ⟨hkey, hverify⟩ := verifyVoteSignature_ok hsig
    exact ⟨rfl, rfl, hkey, .inl ⟨hseal.mem_activeIds hmember, hverify⟩⟩

theorem Reached.poolValid {manager : ValidatorManager} (h : Reached X manager s) : s.PoolValid X := by
  refine (h.invariant (I := fun s => s.Sealed manager ∧ s.PoolValid X) ?_ ?_ ?_).2
  · rintro s s' hc ⟨hseal, hs⟩
    refine ⟨hseal.move hc, fun k vote pid hl => ?_⟩
    exact (hs k vote pid (hc.pool ▸ hl)).mono hc.registry hc.identity
  · rintro B s s' ht ⟨hseal, hs⟩
    exact ⟨hseal.transition ht, hs.transition hseal ht⟩
  · intro identity keypair
    exact ⟨sealed_new identity keypair, fun k vote pid hl => by simp [EngineState.new] at hl⟩

/-! ## Counts that last -/

theorem hasSupermajority_countVotes {t : VoteType} {h : Nat} {inRound : Nat → Bool} {pid : Hash}
    (hreg : registryOf s'.validatorManager = registryOf s.validatorManager)
    (hholds : ∀ r id, inRound r = true → s.Holds t h r id pid → s'.Holds t h r id pid)
    (hq : hasSupermajority (s.countVotes t h inRound pid) s.activeCount = true) :
    hasSupermajority (s'.countVotes t h inRound pid) s'.activeCount = true := by
  rw [activeCount_eq_of_registryOf hreg]
  exact hasSupermajority_mono hq (EngineState.countVotes_le hholds)

theorem Carried.holds {t : VoteType} {h r : Nat} {id : IdentityId} {pid : Hash} (hc : Carried s s')
    (hh : s.Holds t h r id pid) : s'.Holds t h r id pid := by
  obtain ⟨vote, hl⟩ := hh
  exact ⟨vote, hc.pool ▸ hl⟩

end SovereignNetwork.Engine
