import SovereignNetwork.Engine.Lemmas.Trace

/-!
# What a transition and a change of place keep
-/

namespace SovereignNetwork.Engine

open Lib Validators Relation

variable {X : Externals} {A : Origin → EngineState → ConsensusProposal → Prop}
  {B : ConsensusVote → Prop} {env : Env} {s s' : EngineState} {vote : ConsensusVote} {pid : Hash} {t : VoteType}

/-! ## The registry -/

def EngineState.keyOf (s : EngineState) (id : IdentityId) : Option DilithiumPk :=
  (s.validatorManager.getValidator id).map Validator.consensusKey

theorem keyOf_eq_of_registryOf (h : registryOf s'.validatorManager = registryOf s.validatorManager)
    (id : IdentityId) : s'.keyOf id = s.keyOf id := by
  have key : ∀ m : ValidatorManager, (m.getValidator id).map Validator.consensusKey =
      ((registryOf m).find? fun e => e.1 = id).map fun e => e.2.2.1 := by
    intro m
    simp only [ValidatorManager.getValidator, AList.lookup, registryOf]
    induction m.validators.entries with
    | nil => rfl
    | cons e es ih =>
      obtain ⟨k, v⟩ := e
      by_cases hk : k = id
      · subst hk
        simp [List.dlookup_cons_eq]
      · rw [List.dlookup_cons_ne _ _ (Ne.symm hk), ih]
        simp [hk]
  rw [EngineState.keyOf, EngineState.keyOf, key, key, h]

/-! ## Own votes -/

/-- What `cast_vote` signs. -/
structure OwnVote (X : Externals) (s : EngineState) (pid : Hash) (t : VoteType) (vote : ConsensusVote) : Prop where
  identity : s.validatorIdentity = some vote.voter
  proposalId : vote.proposalId = pid
  voteType : vote.voteType = t
  height : vote.height = s.height
  round : vote.round = s.round
  key : s.keyOf vote.voter = some vote.signature.publicKey
  signed : X.sign vote.signature.publicKey vote.envelope = .ok vote.signature.signature

theorem signData_ok {validator : Validator} {data : List UInt8} {signature : PostQuantumSignature}
    (h : s.signData X validator data = .ok signature) :
    signature.publicKey = validator.consensusKey ∧ X.sign signature.publicKey data = .ok signature.signature := by
  unfold EngineState.signData EngineState.localSigningKeypair at h
  cases hk : s.validatorKeypair with
  | none => simp [hk] at h
  | some key =>
    by_cases hne : key = validator.consensusKey
    · simp only [hk, hne, ne_eq, not_true, if_false] at h
      cases hsign : X.sign validator.consensusKey data with
      | error e => simp [hsign] at h
      | ok bytes =>
        simp only [hsign, Except.ok.injEq] at h
        subst h
        exact ⟨rfl, hsign⟩
    · simp [hk, hne] at h

theorem ownVote_ok (h : s.ownVote X pid t = .ok vote) : OwnVote X s pid t vote := by
  unfold EngineState.ownVote at h
  cases hid : s.validatorIdentity with
  | none => simp [hid] at h
  | some id =>
    simp only [hid] at h
    cases hv : s.validatorManager.getValidator id with
    | none => simp [hv] at h
    | some validator =>
      simp only [hv] at h
      split at h
      · cases h
      · rename_i signature hsign
        obtain ⟨hkey, hsigned⟩ := signData_ok hsign
        cases h
        exact ⟨hid, rfl, rfl, rfl, rfl, by simp [EngineState.keyOf, hv, hkey], hsigned⟩

theorem OwnVote.ownKey_eq (h : OwnVote X s pid t vote) : s.ownKey vote.voteType vote.voter = vote.key := by
  simp [EngineState.ownKey, ConsensusVote.key, h.height, h.round]

theorem OwnVote.lookup_none {absent : Bool} (h : OwnVote X s pid t vote)
    (hfresh : s.alreadyVoted t absent = false) : s.votePool.lookup vote.key = none := by
  simp only [EngineState.alreadyVoted, h.identity, decide_eq_false_iff_not] at hfresh
  rw [← h.ownKey_eq, h.voteType]
  exact AList.lookup_eq_none.mpr hfresh

/-! ## Transitions -/

theorem Transition.registry (h : Transition X A B s s') :
    registryOf s'.validatorManager = registryOf s.validatorManager := by
  cases h with
  | quiet h => exact h.registry
  | prevote => exact registryOf_updateValidatorActivity _ _ _
  | latePrevote => exact registryOf_updateValidatorActivity _ _ _
  | precommit => exact registryOf_updateValidatorActivity _ _ _
  | commit => exact registryOf_updateValidatorActivity _ _ _
  | _ => rfl

theorem Transition.identity (h : Transition X A B s s') :
    s.validatorIdentity = none ∨ s'.validatorIdentity = s.validatorIdentity := by
  cases h with
  | quiet h => exact h.identity
  | _ => exact .inr rfl

theorem Transition.history (h : Transition X A B s s') :
    ∀ snapshot ∈ s'.validatorSetHistory, snapshot ∈ s.validatorSetHistory ∨ snapshot.validators = s.activeIds := by
  cases h with
  | quiet h => exact h.history
  | _ => exact fun _ h => .inl h

theorem Transition.place (h : Transition X A B s s') : s'.height = s.height ∧ s'.round = s.round := by
  cases h with
  | quiet h => exact ⟨h.height, h.round⟩
  | _ => exact ⟨rfl, rfl⟩

theorem Transition.step_le (h : Transition X A B s s') : s.step ≤ s'.step := by
  cases h with
  | quiet h => rw [h.step]; exact Nat.le_refl _
  | raise st hle hst => exact hle
  | prevote hstep hpid hvote => rw [hstep]; exact Nat.zero_le _
  | _ => exact Nat.le_refl _

theorem Transition.lookup {k : VotePoolKey} {x : ConsensusVote × Hash} (h : Transition X A B s s')
    (hk : k.voteType ≠ .preVote ∨ k.round ≠ s.round ∨ k.height ≠ s.height) (hl : s.votePool.lookup k = some x) :
    s'.votePool.lookup k = some x := by
  have hinsert : ∀ {k' : VotePoolKey} {y : ConsensusVote × Hash}, k ≠ k' →
      (s.votePool.insert k' y).lookup k = some x := fun hne => by rw [AList.lookup_insert_ne hne, hl]
  have hfresh : ∀ {k' : VotePoolKey}, s.votePool.lookup k' = none → k ≠ k' := by
    rintro k' hnone rfl
    rw [hl] at hnone
    cases hnone
  cases h with
  | quiet h => rw [h.pool]; exact hl
  | prevote hstep hpid hvote =>
    have ho := ownVote_ok hvote
    refine hinsert ?_
    rintro rfl
    rcases hk with hk | hk | hk
    · exact hk ho.voteType
    · exact hk rfl
    · exact hk rfl
  | latePrevote hstep hf hpid hvote =>
    have ho := ownVote_ok hvote
    exact hinsert (ho.ownKey_eq ▸ hfresh (ho.lookup_none hf))
  | precommit hstep hf hquorum hvote =>
    have ho := ownVote_ok hvote
    exact hinsert (ho.ownKey_eq ▸ hfresh (ho.lookup_none hf))
  | commit hstep hf hquorum hvote =>
    have ho := ownVote_ok hvote
    exact hinsert (ho.ownKey_eq ▸ hfresh (ho.lookup_none hf))
  | store hheight hsig hmember hkey => exact hinsert (hfresh hkey)
  | _ => exact hl

theorem Transition.holds {h r : Nat} {id : IdentityId} (hs : Transition X A B s s')
    (ht : t ≠ .preVote ∨ r ≠ s.round ∨ h ≠ s.height) (hh : s.Holds t h r id pid) : s'.Holds t h r id pid := by
  obtain ⟨vote, hl⟩ := hh
  exact ⟨vote, hs.lookup ht hl⟩

/-- The guards of the three votes. -/
inductive Casts (X : Externals) (s : EngineState) : ConsensusVote → Prop
  | prevote {vote : ConsensusVote} {pid : Hash} (own : OwnVote X s pid .preVote vote) (hpid : pid ∈ s.proposals)
      (hstep : s.step = .propose ∨ s.step = .preVote ∧ s.votePool.lookup vote.key = none) : Casts X s vote
  | precommit {vote : ConsensusVote} {pid : Hash} (own : OwnVote X s pid .preCommit vote)
      (hkey : s.votePool.lookup vote.key = none)
      (hquorum : hasSupermajority (s.countPrevotesFor s.height s.round pid) s.activeCount = true) : Casts X s vote
  | commit {vote : ConsensusVote} {pid : Hash} (own : OwnVote X s pid .commit vote)
      (hkey : s.votePool.lookup vote.key = none)
      (hquorum : hasSupermajority (s.countPrecommitsAnyRound s.height pid) s.activeCount = true) : Casts X s vote

theorem Casts.own (h : Casts X s vote) : OwnVote X s vote.proposalId vote.voteType vote := by
  cases h with
  | prevote own => obtain rfl := own.proposalId; rw [own.voteType]; exact own
  | precommit own => obtain rfl := own.proposalId; rw [own.voteType]; exact own
  | commit own => obtain rfl := own.proposalId; rw [own.voteType]; exact own

/-- The effects that a transition can add to the log. -/
inductive NewEffect (X : Externals) (A : Origin → EngineState → ConsensusProposal → Prop) (s : EngineState) :
    Effect → Prop
  | vote {v : ConsensusVote} (h : Casts X s v) : NewEffect X A s (.voteCast v)
  | proposal {p : ConsensusProposal} {env : Env} (hcreate : s.createProposal X env = .ok p) (hadd : A .created s p) :
      NewEffect X A s (.proposalCreated p)
  | callback {p : ConsensusProposal} (succeeded : Bool) (hstep : .commit ≤ s.step)
      (hquorum : hasSupermajority (s.countCommitsFor s.height p.id) s.activeCount = true)
      (hpending : p ∈ s.pendingProposals) :
      NewEffect X A s (.commitCallback ⟨s.height, p, s.quorumProof p.id, succeeded⟩)

theorem Transition.log_eq (h : Transition X A B s s') :
    s'.log = s.log ∨ ∃ eff, NewEffect X A s eff ∧ s'.log = s.log ++ [eff] := by
  cases h with
  | quiet h => exact .inl h.log
  | prevote hstep hpid hvote => exact .inr ⟨_, .vote (.prevote (ownVote_ok hvote) hpid (.inl hstep)), rfl⟩
  | latePrevote hstep hf hpid hvote =>
    have ho := ownVote_ok hvote
    exact .inr ⟨_, .vote (.prevote ho hpid (.inr ⟨hstep, ho.lookup_none hf⟩)), rfl⟩
  | precommit hstep hf hquorum hvote =>
    have ho := ownVote_ok hvote
    exact .inr ⟨_, .vote (.precommit ho (ho.lookup_none hf) hquorum), rfl⟩
  | commit hstep hf hquorum hvote =>
    have ho := ownVote_ok hvote
    exact .inr ⟨_, .vote (.commit ho (ho.lookup_none hf) hquorum), rfl⟩
  | create hcreate hadd => exact .inr ⟨_, .proposal hcreate hadd, rfl⟩
  | callback succeeded hstep hquorum hfind =>
    have hid := List.find?_some hfind
    simp only [beq_iff_eq] at hid
    subst hid
    exact .inr ⟨_, .callback succeeded hstep hquorum (List.mem_of_find?_eq_some hfind), rfl⟩
  | raise => exact .inl rfl
  | store => exact .inl rfl
  | receive => exact .inl rfl
  | discard => exact .inl rfl

theorem Transition.log_cases {eff : Effect} (h : Transition X A B s s') (he : eff ∈ s'.log) :
    eff ∈ s.log ∨ NewEffect X A s eff := by
  rcases h.log_eq with heq | ⟨new, hnew, heq⟩
  · exact .inl (heq ▸ he)
  · rw [heq] at he
    rcases List.mem_append.mp he with he | he
    · exact .inl he
    · rw [List.mem_singleton.mp he]
      exact .inr hnew

/-! ## Changes of place -/

def Env.reportedHeight (env : Env) : Option Nat :=
  match env.provider with
  | none => none
  | some provider =>
    match provider.blockchainHeight with
    | .ok height => some height
    | .error _ => none

theorem syncHeight_none (h : env.reportedHeight = none) : s.syncHeightWithBlockchain env = (.ok (), s) := by
  unfold EngineState.syncHeightWithBlockchain
  cases hprov : env.provider with
  | none => rfl
  | some provider =>
    cases hbh : provider.blockchainHeight with
    | error e => simp [hbh]
    | ok height => simp [Env.reportedHeight, hprov, hbh] at h

theorem syncHeight_some {height : Nat} (h : env.reportedHeight = some height) :
    (s.syncHeightWithBlockchain env).2 = { s with height := height + 1 } ∧
      ((s.syncHeightWithBlockchain env).1 = .ok () ↔
        (height + 1 = s.height ∨ s.height = 0 ∨ s.height < height + 1)) := by
  unfold EngineState.syncHeightWithBlockchain
  cases hprov : env.provider with
  | none => simp [Env.reportedHeight, hprov] at h
  | some provider =>
    cases hbh : provider.blockchainHeight with
    | error e => simp [Env.reportedHeight, hprov, hbh] at h
    | ok height' =>
      obtain rfl : height' = height := by simpa [Env.reportedHeight, hprov, hbh] using h
      have hone : (if height' = 0 then 1 else height' + 1) = height' + 1 := by
        split
        · omega
        · rfl
      simp only [hbh, hone]
      split
      · refine ⟨rfl, ?_⟩
        simp only [reduceCtorEq, false_iff]
        omega
      · refine ⟨rfl, ?_⟩
        simp only [true_iff]
        omega

/-- The ways in which an event changes the place, up to a snapshot of the validator set. -/
inductive Relocation (e : Event) (s : EngineState) : EngineState → Prop
  | stay {s₁ : EngineState} (h : Quiet s s₁) : Relocation e s s₁
  | sync {s₁ : EngineState} {height : Nat} (hreported : e.env.reportedHeight = some height)
      (h : Quiet { s with height := height + 1 } s₁) : Relocation e s s₁
  | roundSync {s₁ : EngineState} {p : ConsensusProposal} (hinput : e.input = .propose p) (hstep : s.step < .commit)
      (hround : s.round < p.round) (h : Quiet (s.resetRound s.height p.round) s₁) : Relocation e s s₁
  | nextRound {s₁ : EngineState} (hinput : e.input = .timer) (hstep : s.step = .commit)
      (hreported : ∀ height, e.env.reportedHeight = some height → height + 1 = s.height)
      (h : Quiet (s.resetRound s.height (wrapU32 (s.round + 1))) s₁) : Relocation e s s₁
  | nextHeight {s₁ : EngineState} {height : Nat} (hinput : e.input = .timer) (hstep : s.step = .commit)
      (hreported : e.env.reportedHeight = some height) (hlt : s.height < height + 1)
      (h : Quiet (s.resetRound (height + 1) 0) s₁) : Relocation e s s₁
  | fallback {s₁ : EngineState} {height : Nat} (hinput : e.input = .timer) (hstep : s.step = .commit)
      (hreported : e.env.reportedHeight = some height) (hlt : height + 1 < s.height)
      (h : Quiet (s.resetRound (height + 2) 0) s₁) : Relocation e s s₁

theorem relocation_resync (e : Event) (s : EngineState) : Relocation e s (s.resync e.env) := by
  unfold EngineState.resync
  cases hr : e.env.reportedHeight with
  | none =>
    rw [syncHeight_none hr]
    exact .stay (quiet_snapshotValidatorSet _ _)
  | some height =>
    rw [(syncHeight_some hr).1]
    exact .sync hr (quiet_snapshotValidatorSet _ _)

theorem relocation_roundAfterCommitTimeout {e : Event} (hinput : e.input = .timer) (hstep : s.step = .commit) :
    Relocation e s (s.roundAfterCommitTimeout e.env) := by
  unfold EngineState.roundAfterCommitTimeout
  cases hr : e.env.reportedHeight with
  | none =>
    rw [syncHeight_none hr]
    simp only [if_true]
    exact .nextRound hinput hstep (fun height h => by rw [hr] at h; cases h) (quiet_snapshotValidatorSet _ _)
  | some height =>
    obtain ⟨hstate, hok⟩ := syncHeight_some (s := s) hr
    rcases hsync : s.syncHeightWithBlockchain e.env with ⟨result, s1⟩
    simp only [hsync] at hstate hok
    subst hstate
    cases result with
    | error err =>
      simp only [reduceCtorEq, false_iff] at hok
      exact .fallback hinput hstep hr (by omega) (quiet_snapshotValidatorSet _ _)
    | ok u =>
      simp only [true_iff] at hok
      dsimp only
      by_cases heq : height + 1 = s.height
      · rw [if_pos heq]
        refine .nextRound hinput hstep (fun h hh => ?_) (heq ▸ quiet_snapshotValidatorSet _ _)
        rw [hr] at hh
        cases hh
        exact heq
      · rw [if_neg heq]
        exact .nextHeight hinput hstep hr (by omega) (quiet_snapshotValidatorSet _ _)

theorem step_roundAfterCommitTimeout (env : Env) (s : EngineState) : (s.roundAfterCommitTimeout env).step = .propose := by
  unfold EngineState.roundAfterCommitTimeout
  split
  · exact (quiet_snapshotValidatorSet _ _).step
  · exact (quiet_snapshotValidatorSet _ _).step

theorem relocation (e : Event) (s : EngineState) : Relocation e s (relocate e s) := by
  unfold relocate
  split
  · cases hr : e.env.reportedHeight with
    | none =>
      rw [syncHeight_none hr]
      exact .stay (quiet_snapshotValidatorSet _ _)
    | some height =>
      have hstate := (syncHeight_some (s := s) hr).1
      rcases hsync : s.syncHeightWithBlockchain e.env with ⟨result, s1⟩
      simp only [hsync] at hstate
      subst hstate
      cases result with
      | error err => exact .sync hr (Quiet.refl _)
      | ok u => exact .sync hr (quiet_snapshotValidatorSet _ _)
  · rename_i p hinput
    split
    · split
      · rename_i hrel
        unfold EngineState.syncRound
        split
        · exact .roundSync hinput (step_lt_of_isProposalRelevant hrel) ‹_› (quiet_snapshotValidatorSet _ _)
        · exact .stay (Quiet.refl s)
      · exact .stay (Quiet.refl s)
    · exact .stay (Quiet.refl s)
  · split
    · rename_i hinput h
      exact relocation_roundAfterCommitTimeout hinput h.2
    · exact .stay (Quiet.refl s)
  · split
    · exact relocation_resync e s
    · exact .stay (Quiet.refl s)
  · exact relocation_resync e s
  · exact .stay (Quiet.refl s)
  · exact .stay (Quiet.refl s)

theorem Relocation.carried {e : Event} (h : Relocation e s s') : Carried s s' := by
  cases h with
  | stay h => exact h.toCarried
  | sync hr h => exact ⟨h.registry, h.identity, h.pending, h.pool, h.log, h.history⟩
  | roundSync hi hs hlt h => exact ⟨h.registry, h.identity, h.pending, h.pool, h.log, h.history⟩
  | nextRound hi hs hr h => exact ⟨h.registry, h.identity, h.pending, h.pool, h.log, h.history⟩
  | nextHeight hi hs hr hlt h => exact ⟨h.registry, h.identity, h.pending, h.pool, h.log, h.history⟩
  | fallback hi hs hr hlt h => exact ⟨h.registry, h.identity, h.pending, h.pool, h.log, h.history⟩

/-! ## Invariants of runs -/

theorem trace_invariant {I : EngineState → Prop} (htrans : ∀ s s', Transition X A B s s' → I s → I s')
    (h : Trace X A B s s') (hs : I s) : I s' := by
  induction h with
  | refl => exact hs
  | tail _ ht ih => exact htrans _ _ ht ih

/-- What every change of place and every transition keeps holds after an event. -/
theorem step_invariant {I : EngineState → Prop} {e : Event} (hadd : ∀ o p, Adds X e s o p → A o (relocate e s) p)
    (hmove : I s → I (relocate e s))
    (htrans : ∀ s s', Transition X A (fun v => e.input = .vote v) s s' → I s → I s') (hs : I s) :
    I (step X s e) :=
  trace_invariant htrans (trace_step e hadd) (hmove hs)

theorem run_invariant {I : EngineState → Prop} (hmove : ∀ s s', Carried s s' → I s → I s')
    (htrans : ∀ {B : ConsensusVote → Prop} s s', Transition X (fun _ _ _ => True) B s s' → I s → I s')
    (hs : I s) (events : List Event) :
    I (run (step X) s events) := by
  induction events generalizing s with
  | nil => exact hs
  | cons e events ih =>
    exact ih (step_invariant (fun _ _ _ => trivial) (hmove _ _ (relocation e s).carried) htrans hs)

end SovereignNetwork.Engine
