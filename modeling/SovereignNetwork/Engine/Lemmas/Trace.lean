import SovereignNetwork.Engine.Transitions

/-!
# Every event is a trace of transitions
-/

namespace SovereignNetwork.Engine

open Lib Validators Relation

variable {X : Externals} {A : Origin → EngineState → ConsensusProposal → Prop}
  {B : ConsensusVote → Prop} {env : Env} {s : EngineState}

/-! ## The registry -/

theorem registryOf_modify {m : ValidatorManager} (id : IdentityId) {f : Validator → Validator}
    (hf : ∀ v, (f v).identity = v.identity ∧ (f v).consensusKey = v.consensusKey ∧
      (f v).canParticipate = v.canParticipate) :
    registryOf { m with validators := HashMap.modify id f m.validators } = registryOf m := by
  simp only [registryOf, HashMap.modify, HashMap.mapEntries, List.map_map]
  refine List.map_congr_left fun e _ => ?_
  by_cases he : e.1 = id
  · simp [he, hf]
  · simp [he]

theorem registryOf_updateValidatorActivity (m : ValidatorManager) (now : Nat) (id : IdentityId) :
    registryOf (m.updateValidatorActivity now id) = registryOf m :=
  registryOf_modify id fun _ => ⟨rfl, rfl, rfl⟩

theorem registryOf_rewardActivity (m : ValidatorManager) (id : IdentityId) :
    registryOf (EngineState.rewardActivity env id m) = registryOf m :=
  registryOf_modify id fun _ => ⟨rfl, rfl, rfl⟩

theorem registryOf_foldl_rewardActivity (ids : List IdentityId) (m : ValidatorManager) :
    registryOf (ids.foldl (fun m id => EngineState.rewardActivity env id m) m) = registryOf m := by
  induction ids generalizing m with
  | nil => rfl
  | cons id ids ih => rw [List.foldl_cons, ih, registryOf_rewardActivity]

theorem registerEntries_eq (entries : List ValidatorEntry) (m : ValidatorManager) :
    EngineState.registerEntries X env entries m = m := by
  unfold EngineState.registerEntries
  induction entries with
  | nil => rfl
  | cons entry entries ih =>
    rw [List.foldl_cons]
    convert ih using 2
    split
    · rfl
    · have herr : ∃ text, m.registrationError entry.identityId entry.stake entry.consensusKey [] [] = some text := by
        simp only [ValidatorManager.registrationError, if_true]
        split_ifs <;> exact ⟨_, rfl⟩
      obtain ⟨text, htext⟩ := herr
      simp [ValidatorManager.registerValidator, htext]

theorem activeIds_eq_of_registryOf {s s' : EngineState}
    (h : registryOf s'.validatorManager = registryOf s.validatorManager) : s'.activeIds = s.activeIds := by
  have key : ∀ m : ValidatorManager, m.getActiveValidators.map Validator.identity =
      (registryOf m).filterMap fun e => if e.2.2.2 then some e.2.1 else none := by
    intro m
    simp only [ValidatorManager.getActiveValidators, HashMap.values, registryOf, List.filter_map, List.filterMap_map,
      List.map_map]
    induction m.validators.entries with
    | nil => rfl
    | cons e es ih =>
      by_cases he : e.2.canParticipate = true
      · simp [he, ih]
      · simp [he, ih]
  rw [EngineState.activeIds, EngineState.activeIds, key, key, h]

theorem activeCount_eq_length (s : EngineState) : s.activeCount = s.activeIds.length := by
  simp [EngineState.activeCount, EngineState.activeIds]

theorem activeCount_eq_of_registryOf {s s' : EngineState}
    (h : registryOf s'.validatorManager = registryOf s.validatorManager) : s'.activeCount = s.activeCount := by
  rw [activeCount_eq_length, activeCount_eq_length, activeIds_eq_of_registryOf h]

/-! ## Quiet changes -/

theorem Quiet.refl (s : EngineState) : Quiet s s :=
  ⟨⟨rfl, .inr rfl, rfl, rfl, rfl, fun _ h => .inl h⟩, rfl, rfl, rfl, rfl⟩

theorem Quiet.trans {s s' s'' : EngineState} (h : Quiet s s') (h' : Quiet s' s'') : Quiet s s'' where
  registry := h'.registry.trans h.registry
  identity := by
    rcases h.identity with hi | hi
    · exact .inl hi
    · rcases h'.identity with hi' | hi'
      · exact .inl (hi.symm.trans hi')
      · exact .inr (hi'.trans hi)
  height := h'.height.trans h.height
  round := h'.round.trans h.round
  step := h'.step.trans h.step
  proposals := h'.proposals.trans h.proposals
  pending := h'.pending.trans h.pending
  pool := h'.pool.trans h.pool
  log := h'.log.trans h.log
  history := by
    intro snapshot hs
    rcases h'.history snapshot hs with hs | hs
    · exact h.history snapshot hs
    · exact .inr (hs.trans (activeIds_eq_of_registryOf h.registry))

theorem quiet_snapshotValidatorSet (height : Nat) (s : EngineState) : Quiet s (s.snapshotValidatorSet height) := by
  unfold EngineState.snapshotValidatorSet
  split
  · exact Quiet.refl s
  · refine ⟨⟨rfl, .inr rfl, rfl, rfl, rfl, ?_⟩, rfl, rfl, rfl, rfl⟩
    intro snapshot hs
    simp only at hs
    have hmem : snapshot ∈ s.validatorSetHistory ++ [⟨height, s.activeIds⟩] := by
      split at hs
      · exact List.mem_of_mem_tail hs
      · exact hs
    rcases List.mem_append.mp hmem with h | h
    · exact .inl h
    · rw [List.mem_singleton.mp h]
      exact .inr rfl

theorem quiet_updateValidatorMetrics (p : ConsensusProposal) (s : EngineState) :
    Quiet s (s.updateValidatorMetrics env p) :=
  ⟨⟨registryOf_foldl_rewardActivity _ _, .inr rfl, rfl, rfl, rfl, fun _ h => .inl h⟩, rfl, rfl, rfl, rfl⟩

theorem quiet_setLocalValidatorIdentity (id : IdentityId) (s : EngineState) :
    Quiet s (s.setLocalValidatorIdentity id) := by
  have hset : s.validatorIdentity = none → Quiet s { s with validatorIdentity := some id } :=
    fun hnone => ⟨⟨rfl, .inl hnone, rfl, rfl, rfl, fun _ h => .inl h⟩, rfl, rfl, rfl, rfl⟩
  unfold EngineState.setLocalValidatorIdentity
  split
  · exact Quiet.refl s
  · exact Quiet.refl s
  · rename_i hnone _
    split
    · exact hset hnone
    · split
      · exact Quiet.refl s
      · exact hset hnone

theorem quiet_setValidatorKeypair (keypair : DilithiumPk) (s : EngineState) :
    Quiet s (s.setValidatorKeypair keypair) := by
  unfold EngineState.setValidatorKeypair
  split
  · exact Quiet.refl s
  · split
    · exact Quiet.refl s
    · split
      · exact Quiet.refl s
      · exact ⟨⟨rfl, .inr rfl, rfl, rfl, rfl, fun _ h => .inl h⟩, rfl, rfl, rfl, rfl⟩

theorem quiet_onValidatorUpdate (update : ValidatorSetUpdate) (s : EngineState) :
    Quiet s (s.onValidatorUpdate X env update) := by
  unfold EngineState.onValidatorUpdate
  simp only [registerEntries_eq]
  have hidentity : Quiet s (update.localIdentity.elim s fun id => s.setLocalValidatorIdentity id) := by
    cases update.localIdentity with
    | none => exact Quiet.refl s
    | some id => exact quiet_setLocalValidatorIdentity id s
  refine (hidentity.trans ?_).trans (quiet_snapshotValidatorSet _ _)
  cases update.localKeypair with
  | none => exact Quiet.refl _
  | some keypair => exact quiet_setValidatorKeypair keypair _

/-! ## Steps of a round -/

theorem ConsensusStep.eq_propose_of_not_le {a : ConsensusStep} (h : ¬ .preVote ≤ a) : a = .propose := by
  cases a <;> first | rfl | exact absurd (by decide) h

theorem trace_andThen {o : Outcome} {k : EngineState → Outcome} (ho : Trace X A B s o.2)
    (hk : ∀ s', o = (.ok (), s') → Trace X A B s' (k s').2) : Trace X A B s (o.andThen k).2 := by
  obtain ⟨result, s'⟩ := o
  cases result with
  | error e => exact ho
  | ok u => exact ho.trans (hk s' rfl)

theorem trace_quiet {s' : EngineState} (h : Quiet s s') : Trace X A B s s' := .single (.quiet h)

theorem castVote_cases (X : Externals) (env : Env) (pid : Hash) (t : VoteType) (s : EngineState) :
    (∃ err, s.castVote X env pid t = (.error err, s)) ∨
      ∃ vote, s.ownVote X pid t = .ok vote ∧ s.castVote X env pid t = (.ok (), s.recordOwnVote env vote) := by
  unfold EngineState.castVote
  cases h : s.ownVote X pid t with
  | error err => exact .inl ⟨err, rfl⟩
  | ok vote => exact .inr ⟨vote, rfl, rfl⟩

theorem trace_castVote {pid : Hash} {t : VoteType}
    (h : ∀ vote, s.ownVote X pid t = .ok vote → Transition X A B s (s.recordOwnVote env vote)) :
    Trace X A B s (s.castVote X env pid t).2 := by
  rcases castVote_cases X env pid t s with ⟨err, heq⟩ | ⟨vote, hvote, heq⟩
  · rw [heq]
  · rw [heq]
    exact .single (h vote hvote)

theorem trace_enterPrevoteStep : Trace X A B s (s.enterPrevoteStep X env).2 := by
  unfold EngineState.enterPrevoteStep
  split
  · exact .refl
  · rename_i hstep
    have hpropose := ConsensusStep.eq_propose_of_not_le hstep
    have hraise : Transition X A B s { s with step := .preVote } :=
      .raise .preVote (by rw [hpropose]; decide) (by decide)
    dsimp only
    split
    · exact .single hraise
    · rename_i pid hpid
      rcases castVote_cases X env pid .preVote { s with step := .preVote } with ⟨err, heq⟩ | ⟨vote, hvote, heq⟩
      · rw [heq]
        exact .single hraise
      · rw [heq]
        exact .single (.prevote hpropose (List.mem_of_mem_head? hpid) hvote)

theorem trace_enterPrecommitStep : Trace X A B s (s.enterPrecommitStep X env).2 := by
  unfold EngineState.enterPrecommitStep
  split
  · exact .refl
  · rename_i hstep
    dsimp only
    generalize hs1 : (if s.step < .preCommit then { s with step := .preCommit } else s) = s1
    have hraise : Trace X A B s s1 ∧ s1.step = .preCommit := by
      subst hs1
      by_cases hlt : s.step < .preCommit
      · rw [if_pos hlt]
        exact ⟨.single (.raise .preCommit (Nat.le_of_lt hlt) (by decide)), rfl⟩
      · rw [if_neg hlt]
        refine ⟨.refl, ?_⟩
        cases h : s.step <;> rw [h] at hstep hlt <;> first | rfl | exact absurd (by decide) hstep | exact absurd (by decide) hlt
    obtain ⟨htrace, hs1step⟩ := hraise
    refine htrace.trans ?_
    split
    · exact .refl
    · rename_i pid hpid
      split
      · exact .refl
      · rename_i hfresh
        split
        · rename_i hquorum
          refine trace_andThen ?_ ?_
          · exact trace_castVote fun vote hvote =>
            .precommit hs1step (by simpa using hfresh) hquorum hvote
          · intro s' _
            exact trace_quiet ⟨⟨rfl, .inr rfl, rfl, rfl, rfl, fun _ h => .inl h⟩, rfl, rfl, rfl, rfl⟩
        · exact .refl

/-! ## Finalization -/

theorem trace_processCommittedBlock {pid : Hash} (hstep : .commit ≤ s.step) :
    Trace X A B s (s.processCommittedBlock X env pid).2 := by
  unfold EngineState.processCommittedBlock
  dsimp only
  split
  · exact .refl
  · rename_i hquorum
    have hquorum : hasSupermajority (s.countCommitsFor s.height pid) s.activeCount = true := by simpa using hquorum
    split
    · split <;> exact .refl
    · rename_i p hfind
      have hdiscard := Transition.discard (X := X) (A := A) (B := B) (s := s) pid
      split
      · exact .single hdiscard
      · unfold EngineState.applyBlockToStateWithProof
        split
        · exact .trans (.single hdiscard) (trace_quiet (quiet_updateValidatorMetrics p _))
        · split
          · exact .trans (.single (.callback true hstep hquorum hfind)) (trace_quiet (quiet_updateValidatorMetrics p _))
          · exact .single (.callback false hstep hquorum hfind)

theorem EngineState.commit_le_step_raiseToCommit (s : EngineState) : .commit ≤ s.raiseToCommit.step := by
  unfold EngineState.raiseToCommit
  split
  · exact Nat.le_refl _
  · rename_i h
    exact Nat.le_of_not_lt h

theorem trace_raiseToCommit : Trace X A B s s.raiseToCommit := by
  unfold EngineState.raiseToCommit
  split
  · rename_i h
    exact .single (.raise .commit (Nat.le_of_lt h) (Nat.le_refl _))
  · exact .refl

theorem trace_maybeFinalize {height : Nat} {pid : Hash} : Trace X A B s (s.maybeFinalize X env height pid).2 := by
  unfold EngineState.maybeFinalize
  split
  · split
    · exact trace_raiseToCommit.trans (trace_processCommittedBlock s.commit_le_step_raiseToCommit)
    · exact .refl
  · exact .refl

theorem trace_enterCommitStep : Trace X A B s (s.enterCommitStep X env).2 := by
  unfold EngineState.enterCommitStep
  refine trace_raiseToCommit.trans ?_
  dsimp only
  split
  · exact .refl
  · rename_i pid hpid
    split
    · exact .refl
    · rename_i hfresh
      split
      · rename_i hquorum
        refine trace_andThen ?_ fun s' _ => trace_maybeFinalize
        exact trace_castVote fun vote hvote =>
          .commit s.commit_le_step_raiseToCommit (by simpa using hfresh) hquorum hvote
      · exact .refl

/-! ## Messages -/

structure EngineState.Checks (X : Externals) (s : EngineState) (vote : ConsensusVote) : Prop where
  height : vote.height = s.height
  signature : s.verifyVoteSignature X vote = true
  member : s.isValidatorMember vote.voter vote.height = true

theorem checks_of_validateRemoteVote {vote : ConsensusVote} (h : s.validateRemoteVote X vote = true) :
    s.Checks X vote := by
  unfold EngineState.validateRemoteVote at h
  split at h
  · cases h
  · split at h
    · cases h
    · split at h
      · cases h
      · split at h
        · cases h
        · rename_i hlt hgt hsig hmem
          exact ⟨by omega, by simpa using hsig, by simpa using hmem⟩

theorem detectEquivocation_cases (vote : ConsensusVote) (s : EngineState) :
    ∃ evidence firstVotes, s.detectEquivocation vote = (evidence, { s with firstVotes := firstVotes }) := by
  unfold EngineState.detectEquivocation
  split
  · exact ⟨_, s.firstVotes, rfl⟩
  · exact ⟨false, _, rfl⟩

theorem acceptVote_cases (vote : ConsensusVote) (s : EngineState) :
    ∃ firstVotes, s.acceptVote vote vote.voteType = (false, { s with firstVotes := firstVotes }) ∨
      s.votePool.lookup vote.key = none ∧ s.acceptVote vote vote.voteType =
        (true, { s with
          firstVotes := firstVotes, votePool := s.votePool.insert vote.key (vote, vote.proposalId) }) := by
  obtain ⟨evidence, firstVotes, hd⟩ := detectEquivocation_cases vote s
  refine ⟨firstVotes, ?_⟩
  unfold EngineState.acceptVote
  rw [hd]
  cases evidence with
  | true => exact .inl rfl
  | false =>
    dsimp only
    split
    · exact .inl rfl
    · exact .inr ⟨‹_›, rfl⟩

theorem trace_acceptVote {vote : ConsensusVote} {t : VoteType} (hb : B vote) (hc : s.Checks X vote)
    (ht : vote.voteType = t) {accepted : Bool} {s' : EngineState} (h : s.acceptVote vote t = (accepted, s')) :
    Trace X A B s s' := by
  subst ht
  obtain ⟨firstVotes, heq | ⟨hkey, heq⟩⟩ := acceptVote_cases vote s
  all_goals
    rw [heq] at h
    cases h
    have hfirst : Trace X A B s { s with firstVotes := firstVotes } :=
      trace_quiet ⟨⟨rfl, .inr rfl, rfl, rfl, rfl, fun _ h => .inl h⟩, rfl, rfl, rfl, rfl⟩
  · exact hfirst
  · exact hfirst.trans (.single (Transition.store (s := { s with firstVotes := firstVotes }) hc.height hc.signature
      hc.member hkey hb))

theorem trace_setValid (pid : Option Hash) : Trace X A B s { s with validProposal := pid } :=
  trace_quiet ⟨⟨rfl, .inr rfl, rfl, rfl, rfl, fun _ h => .inl h⟩, rfl, rfl, rfl, rfl⟩

theorem trace_setLocked (pid : Option Hash) : Trace X A B s { s with lockedProposal := pid } :=
  trace_quiet ⟨⟨rfl, .inr rfl, rfl, rfl, rfl, fun _ h => .inl h⟩, rfl, rfl, rfl, rfl⟩

theorem trace_onPrevote {vote : ConsensusVote} (hb : B vote) (ht : vote.voteType = .preVote) :
    Trace X A B s (s.onPrevote X env vote).2 := by
  unfold EngineState.onPrevote
  split
  · exact .refl
  · rename_i hvalid
    have hchecks := checks_of_validateRemoteVote (by simpa using hvalid)
    split
    · exact trace_acceptVote hb hchecks ht ‹_›
    · refine (trace_acceptVote hb hchecks ht ‹_›).trans ?_
      dsimp only
      split
      · split
        · split
          · exact .refl
          · exact trace_andThen trace_enterPrecommitStep fun _ _ => trace_maybeFinalize
        · refine (trace_setValid (some vote.proposalId)).trans ?_
          exact trace_andThen trace_enterPrecommitStep fun _ _ => trace_maybeFinalize
      · exact trace_maybeFinalize

theorem trace_onPrecommit {vote : ConsensusVote} (hb : B vote) (ht : vote.voteType = .preCommit) :
    Trace X A B s (s.onPrecommit X env vote).2 := by
  unfold EngineState.onPrecommit
  split
  · exact .refl
  · rename_i hvalid
    have hchecks := checks_of_validateRemoteVote (by simpa using hvalid)
    split
    · exact trace_acceptVote hb hchecks ht ‹_›
    · refine (trace_acceptVote hb hchecks ht ‹_›).trans ?_
      dsimp only
      split
      · split
        · split
          · exact .refl
          · exact trace_andThen trace_enterCommitStep fun _ _ => trace_maybeFinalize
        · refine (trace_setLocked (some vote.proposalId)).trans ?_
          exact trace_andThen trace_enterCommitStep fun _ _ => trace_maybeFinalize
      · exact trace_maybeFinalize

theorem trace_onCommitVote {vote : ConsensusVote} (hb : B vote) (ht : vote.voteType = .commit) :
    Trace X A B s (s.onCommitVote X env vote).2 := by
  unfold EngineState.onCommitVote
  split
  · exact .refl
  · split
    · exact .refl
    · split
      · exact .refl
      · split
        · exact .refl
        · rename_i hgt hlt hsig hmem
          have hchecks : s.Checks X vote := ⟨by omega, by simpa using hsig, by simpa using hmem⟩
          split
          · exact trace_acceptVote hb hchecks ht ‹_›
          · exact (trace_acceptVote hb hchecks ht ‹_›).trans trace_maybeFinalize

theorem trace_onMessageVote {vote : ConsensusVote} (hb : B vote) : Trace X A B s (s.onMessageVote X env vote).2 := by
  unfold EngineState.onMessageVote
  split
  · exact trace_onPrevote hb ‹_›
  · exact trace_onPrecommit hb ‹_›
  · exact trace_onCommitVote hb ‹_›
  · exact .refl

theorem trace_voteOnAdmission {pid : Hash} (hpid : pid ∈ s.proposals) :
    Trace X A B s (s.voteOnAdmission X env pid).2 := by
  unfold EngineState.voteOnAdmission
  split
  · exact trace_enterPrevoteStep
  · rename_i hstep
    split
    · exact .refl
    · rename_i hfresh
      refine trace_andThen ?_ fun s' _ => ?_
      · exact trace_castVote fun vote hvote => .latePrevote hstep (by simpa using hfresh) hpid hvote
      · split
        · exact (trace_setValid _).trans trace_enterPrecommitStep
        · exact .refl
  · exact .refl

theorem trace_enterProposeStep
    (hadd : ∀ p, s.computeProposerForRound s.height s.round = s.validatorIdentity → s.createProposal X env = .ok p →
      A .created s p) : Trace X A B s (s.enterProposeStep X env) := by
  have hproposer : ∀ (s : EngineState) id, Trace X A B s { s with proposer := some id } := fun s id =>
    trace_quiet ⟨⟨rfl, .inr rfl, rfl, rfl, rfl, fun _ h => .inl h⟩, rfl, rfl, rfl, rfl⟩
  unfold EngineState.enterProposeStep
  split
  · exact .refl
  · rename_i id hid
    dsimp only
    split
    · rename_i hlocal
      split
      · exact hproposer s id
      · rename_i p hcreate
        -- the proposer field is not read by `create_proposal`, so it can be set after the creation
        have hcreate : s.createProposal X env = .ok p := hcreate
        have htrace := Transition.create (B := B) hcreate (hadd p (hid.trans hlocal.symm) hcreate)
        exact (Relation.ReflTransGen.single htrace).trans ((hproposer _ id).trans trace_enterPrevoteStep)
    · exact hproposer s id

/-! ## Events -/

theorem step_lt_of_isProposalRelevant {p : ConsensusProposal} (h : s.isProposalRelevant p = true) :
    s.step < .commit := by
  unfold EngineState.isProposalRelevant at h
  split at h
  · cases h
  · simpa using h

theorem step_syncRound_lt {p : ConsensusProposal} (h : s.isProposalRelevant p = true) :
    (s.syncRound p.round).step < .commit := by
  unfold EngineState.syncRound
  split
  · rw [(quiet_snapshotValidatorSet _ _).step]
    exact (by decide : ConsensusStep.propose < .commit)
  · exact step_lt_of_isProposalRelevant h

theorem trace_onProposal {p : ConsensusProposal}
    (hadd : ∀ o q, Adds X ⟨env, .propose p⟩ s o q → A o (relocate ⟨env, .propose p⟩ s) q) :
    Trace X A B (relocate ⟨env, .propose p⟩ s) (s.onProposal X env p).2 := by
  unfold EngineState.onProposal
  simp only [relocate] at hadd ⊢
  cases hfork : s.validateNoForkProposal p.height p.round p.id with
  | error err => exact .refl
  | ok u =>
    simp only [hfork] at hadd ⊢
    cases hrel : s.isProposalRelevant p with
    | false => exact .refl
    | true =>
      simp only [hrel, if_true] at hadd
      simp only [Bool.not_true, if_true, Bool.false_eq_true, if_false]
      split
      · exact .refl
      · rename_i hempty
        have hempty : (s.syncRound p.round).proposals = [] := by simpa using hempty
        split
        · exact .refl
        · rename_i hvalid
          have hreceive := Transition.receive (B := B) (X := X) (step_syncRound_lt hrel) hempty
            (hadd .received p (.received rfl hfork hrel hempty hvalid))
          refine (Relation.ReflTransGen.single hreceive).trans (trace_voteOnAdmission ?_)
          simp [EngineState.addProposal]

/-- An event is a change of place followed by transitions there. -/
theorem trace_step (e : Event) (hadd : ∀ o p, Adds X e s o p → A o (relocate e s) p) :
    Trace X A (fun v => e.input = .vote v) (relocate e s) (step X s e) := by
  obtain ⟨env, input⟩ := e
  cases input with
  | start =>
    have hpropose := fun hp p hl hc => hadd .created p (.created hp hl hc)
    simp only [relocate, step, handle, EngineState.start, proposing] at hpropose ⊢
    rcases hsync : s.syncHeightWithBlockchain env with ⟨_ | _, s1⟩
    · exact .refl
    · simp only [hsync, Outcome.andThen] at hpropose ⊢
      split
      · rename_i hbft
        exact trace_enterProposeStep fun p hl hc => hpropose (by simp [Except.isOk, Except.toBool, hbft]) p hl hc
      · exact .refl
  | propose p => exact trace_onProposal hadd
  | vote vote => exact trace_onMessageVote rfl
  | timer =>
    have hpropose := fun hp p hl hc => hadd .created p (.created hp hl hc)
    simp only [relocate, step, handle, proposing] at hpropose ⊢
    by_cases hbft : s.isBftModeActive = true
    · simp only [hbft, if_true, true_and] at hpropose ⊢
      unfold EngineState.onRoundTimeout
      cases hstep : s.step with
      | propose => exact trace_enterPrevoteStep
      | preVote => exact trace_enterPrecommitStep
      | preCommit => exact trace_enterCommitStep
      | commit =>
        simp only [hstep, if_true] at hpropose ⊢
        exact trace_enterProposeStep fun p hl hc => hpropose rfl p hl hc
      | newRound => exact .refl
    · simp only [hbft, Bool.false_eq_true, false_and, if_false]
      exact .refl
  | modeTransitionToBft =>
    have hpropose := fun hp p hl hc => hadd .created p (.created hp hl hc)
    simp only [relocate, step, handle, proposing] at hpropose ⊢
    by_cases hbft : s.isBftModeActive = true
    · simp only [hbft, if_true] at hpropose ⊢
      exact trace_enterProposeStep fun p hl hc => hpropose trivial p hl hc
    · simp only [hbft, Bool.false_eq_true, if_false]
      exact .refl
  | newBlock => exact .refl
  | validatorUpdate update => exact trace_quiet (quiet_onValidatorUpdate update s)

end SovereignNetwork.Engine
