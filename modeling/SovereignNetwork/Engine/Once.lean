import SovereignNetwork.Engine.Lemmas.Place
import SovereignNetwork.Engine.Quorums

/-!
# One commit for each height

The engine recognises a finalized proposal by its absence from the pending proposals and its presence in the
proposals of the round. A proposal that is admitted again while it is pending, or finalized in a later round
than it was admitted in, escapes one of the two.
-/

namespace SovereignNetwork.Engine

open Lib Validators Relation

variable {X : Externals} {s s' : EngineState} {e : Event} {c₀ : Nat}

/-! ## The chain behind the engine -/

def EngineState.successes (s : EngineState) : List CommitCallback := s.commitCallbacks.filter (·.succeeded)

/-- The height of the chain: that of the last block the callback accepted, and `c₀` before the first. -/
def chainHeight (c₀ : Nat) (s : EngineState) : Nat := (s.successes.getLast?.map CommitCallback.height).getD c₀

/-- The pool holds commit votes of a supermajority, counted over all rounds, for the proposal at the current height. -/
def EngineState.HasCommitQuorum (s : EngineState) (pid : Hash) : Prop :=
  hasSupermajority (s.countCommitsFor s.height pid) s.activeCount = true

/-- At most one proposal of the current height has such a quorum. -/
def EngineState.OneQuorum (s : EngineState) : Prop :=
  ∀ pid pid', s.HasCommitQuorum pid → s.HasCommitQuorum pid' → pid = pid'

/-- The inputs of the running loop. The active validators do not change in a run, so there is no mode transition. -/
def Input.fromLoop : Input → Bool
  | .start => false
  | .modeTransitionToBft => false
  | _ => true

/-- No proposal is added while one with its id is pending. -/
def AddsFresh (X : Externals) (s : EngineState) (e : Event) : Prop :=
  ∀ o p, Adds X e s o p → ∀ q ∈ s.pendingProposals, q.id ≠ p.id

/-! ## The invariant -/

/-- What is known of an added proposal, in the state it is added in. -/
def FreshOnEntry (_ : Origin) (s : EngineState) (p : ConsensusProposal) : Prop :=
  s.step < .commit ∧ ∀ q ∈ s.pendingProposals, q.id ≠ p.id

/-- The proposal finalized at the current height is gone from the pending ones, and its quorum is in the pool. -/
structure Finalized (s : EngineState) (call : CommitCallback) : Prop where
  step : .commit ≤ s.step
  gone : ∀ q ∈ s.pendingProposals, q.id ≠ call.proposal.id
  quorum : s.HasCommitQuorum call.proposal.id

structure CommitsOnce (c₀ : Nat) (s : EngineState) : Prop where
  pending : (s.pendingProposals.map ConsensusProposal.id).Nodup
  increasing : (s.successes.map CommitCallback.height).Pairwise (· < ·)
  le : ∀ call ∈ s.successes, call.height ≤ s.height
  height : s.height = chainHeight c₀ s + 1 ∧ (∀ call ∈ s.successes, call.height < s.height) ∨
    s.height = chainHeight c₀ s ∧ ∃ call ∈ s.successes, call.height = s.height
  finalized : ∀ call ∈ s.successes, call.height = s.height → Finalized s call

theorem EngineState.HasCommitQuorum.transition {A : Origin → EngineState → ConsensusProposal → Prop}
    {B : ConsensusVote → Prop} {pid : Hash}
    (h : Transition X A B s s') (hq : s.HasCommitQuorum pid) : s'.HasCommitQuorum pid := by
  unfold EngineState.HasCommitQuorum at *
  rw [h.place.1]
  exact hasSupermajority_countVotes h.registry (fun _ _ _ => h.holds (.inl (by decide))) hq

theorem EngineState.HasCommitQuorum.trace {A : Origin → EngineState → ConsensusProposal → Prop}
    {B : ConsensusVote → Prop} {pid : Hash}
    (h : Trace X A B s s') (hq : s.HasCommitQuorum pid) : s'.HasCommitQuorum pid :=
  trace_invariant (I := fun s => s.HasCommitQuorum pid) (fun _ _ ht hq => hq.transition ht) h hq

theorem CommitsOnce.of_quiet (hheight : s'.height = s.height) (hstep : s.step ≤ s'.step)
    (hquorum : ∀ pid, s.HasCommitQuorum pid → s'.HasCommitQuorum pid) (hsucc : s'.successes = s.successes)
    (hsub : s'.pendingProposals.Sublist s.pendingProposals) (hs : CommitsOnce c₀ s) : CommitsOnce c₀ s' := by
  have hchain : chainHeight c₀ s' = chainHeight c₀ s := by rw [chainHeight, chainHeight, hsucc]
  refine ⟨hs.pending.sublist (hsub.map _), hsucc ▸ hs.increasing, ?_, ?_, ?_⟩
  · rw [hsucc, hheight]
    exact hs.le
  · rw [hsucc, hheight, hchain]
    exact hs.height
  · rw [hsucc, hheight]
    intro call hcall hh
    have hf := hs.finalized call hcall hh
    exact ⟨Nat.le_trans hf.step hstep, fun q hq => hf.gone q (hsub.subset hq), hquorum _ hf.quorum⟩

theorem CommitsOnce.not_finalized (hs : CommitsOnce c₀ s) (hstep : s.step < .commit) :
    s.height = chainHeight c₀ s + 1 ∧ ∀ call ∈ s.successes, call.height < s.height := by
  rcases hs.height with h | ⟨-, call, hcall, hh⟩
  · exact h
  · exact absurd (hs.finalized call hcall hh).step (Nat.not_le.mpr hstep)

theorem CommitsOnce.add {p : ConsensusProposal} {log : List Effect}
    (hlog : log = s.log ∨ ∃ q, log = s.log ++ [.proposalCreated q])
    (hadd : s.step < .commit ∧ ∀ q ∈ s.pendingProposals, q.id ≠ p.id) (hs : CommitsOnce c₀ s) :
    CommitsOnce c₀ { s.addProposal p with log := log } := by
  have hsucc : EngineState.successes { s.addProposal p with log := log } = s.successes := by
    unfold EngineState.successes EngineState.commitCallbacks
    rcases hlog with rfl | ⟨q, rfl⟩
    · rfl
    · simp
  have hchain : chainHeight c₀ { s.addProposal p with log := log } = chainHeight c₀ s := by
    rw [chainHeight, chainHeight, hsucc]
  obtain ⟨hheight, hlt⟩ := hs.not_finalized hadd.1
  refine ⟨?_, hsucc ▸ hs.increasing, hsucc ▸ hs.le, .inl ⟨?_, ?_⟩, ?_⟩
  · show ((s.pendingProposals ++ [p]).map ConsensusProposal.id).Nodup
    rw [List.map_append, List.nodup_append]
    refine ⟨hs.pending, List.nodup_singleton _, ?_⟩
    intro a ha b hb
    obtain ⟨q, hq, rfl⟩ := List.mem_map.mp ha
    rw [List.map_singleton, List.mem_singleton] at hb
    rw [hb]
    exact hadd.2 q hq
  · rw [hchain]
    exact hheight
  · rw [hsucc]
    exact hlt
  · rw [hsucc]
    intro call hcall hh
    exact absurd hh (Nat.ne_of_lt (hlt call hcall))

theorem CommitsOnce.commit {p : ConsensusProposal} {proof : BftQuorumProof} (hstep : .commit ≤ s.step)
    (hquorum : s.HasCommitQuorum p.id) (hpending : p ∈ s.pendingProposals) (hone : s.OneQuorum)
    (hs : CommitsOnce c₀ s) :
    CommitsOnce c₀ { s with
      pendingProposals := s.pendingProposals.eraseP fun q => q.id == p.id
      log := s.log ++ [.commitCallback ⟨s.height, p, proof, true⟩] } := by
  have hsucc : EngineState.successes { s with
      pendingProposals := s.pendingProposals.eraseP fun q => q.id == p.id
      log := s.log ++ [.commitCallback ⟨s.height, p, proof, true⟩] } =
      s.successes ++ [⟨s.height, p, proof, true⟩] := by
    simp [EngineState.successes, EngineState.commitCallbacks]
  have hchain : chainHeight c₀ { s with
      pendingProposals := s.pendingProposals.eraseP fun q => q.id == p.id
      log := s.log ++ [.commitCallback ⟨s.height, p, proof, true⟩] } = s.height := by
    rw [chainHeight, hsucc]
    simp
  -- a proposal finalized before at this height would be `p` itself, which is still pending
  have hlt : ∀ call ∈ s.successes, call.height < s.height := by
    intro call hcall
    refine Nat.lt_of_le_of_ne (hs.le call hcall) fun hh => ?_
    have hf := hs.finalized call hcall hh
    exact hf.gone p hpending (hone _ _ hquorum hf.quorum)
  have hgone : ∀ q ∈ s.pendingProposals.eraseP (fun q => q.id == p.id), q.id ≠ p.id := by
    intro q hq heq
    have hnd := hs.pending
    obtain ⟨q', l₁, l₂, hl₁, hq', hsplit, herase⟩ := List.exists_of_eraseP (p := fun q : ConsensusProposal => q.id == p.id)
      hpending (by simp)
    rw [herase] at hq
    rw [hsplit] at hnd
    have hid : q'.id = p.id := by simpa using hq'
    rcases List.mem_append.mp hq with hq | hq
    · exact hl₁ q hq (by simpa using heq)
    · rw [List.map_append, List.nodup_append, List.map_cons, List.nodup_cons] at hnd
      exact hnd.2.1.1 (List.mem_map.mpr ⟨q, hq, heq.trans hid.symm⟩)
  refine ⟨?_, ?_, ?_, .inr ⟨hchain.symm, ?_⟩, ?_⟩
  · exact hs.pending.sublist (List.eraseP_sublist.map _)
  · rw [hsucc, List.map_append, List.pairwise_append]
    refine ⟨hs.increasing, List.pairwise_singleton _ _, ?_⟩
    intro a ha b hb
    obtain ⟨call, hcall, rfl⟩ := List.mem_map.mp ha
    rw [List.map_singleton, List.mem_singleton] at hb
    rw [hb]
    exact hlt call hcall
  · rw [hsucc]
    intro call hcall
    rcases List.mem_append.mp hcall with hcall | hcall
    · exact hs.le call hcall
    · rw [List.mem_singleton.mp hcall]
  · rw [hsucc]
    exact ⟨_, List.mem_append_right _ (List.mem_singleton_self _), rfl⟩
  · rw [hsucc]
    intro call hcall hh
    rcases List.mem_append.mp hcall with hcall | hcall
    · exact absurd hh (Nat.ne_of_lt (hlt call hcall))
    · rw [List.mem_singleton.mp hcall]
      exact ⟨hstep, hgone, hquorum⟩

theorem successes_eq_of_log (eff : Effect) (heff : ∀ call, eff = .commitCallback call → call.succeeded = false)
    (hlog : s'.log = s.log ++ [eff]) : s'.successes = s.successes := by
  unfold EngineState.successes EngineState.commitCallbacks
  rw [hlog]
  cases eff with
  | commitCallback call => simp [heff call rfl]
  | _ => simp

theorem CommitsOnce.transition (h : Transition X FreshOnEntry B s s') (hone : s.OneQuorum) (hs : CommitsOnce c₀ s) :
    CommitsOnce c₀ s' := by
  have hlog : ∀ {s₁ s₂ : EngineState}, s₂.log = s₁.log → s₂.successes = s₁.successes := by
    intro s₁ s₂ h
    rw [EngineState.successes, EngineState.successes, EngineState.commitCallbacks, EngineState.commitCallbacks, h]
  have hvote : ∀ {s₁ : EngineState} {env : Env} {v : ConsensusVote}, s₁.log = s.log →
      (s₁.recordOwnVote env v).successes = s.successes := by
    intro s₁ env v h
    exact successes_eq_of_log (.voteCast v) (fun call h => by cases h)
      (by rw [EngineState.recordOwnVote, h])
  have hquiet := fun hsucc hsub => hs.of_quiet h.place.1 h.step_le (fun pid hq => hq.transition h) hsucc hsub
  cases h with
  | quiet h => exact hquiet (hlog h.log) (h.pending ▸ List.Sublist.refl _)
  | raise => exact hquiet rfl (List.Sublist.refl _)
  | prevote => exact hquiet (hvote rfl) (List.Sublist.refl _)
  | latePrevote => exact hquiet (hvote rfl) (List.Sublist.refl _)
  | precommit => exact hquiet (hvote rfl) (List.Sublist.refl _)
  | commit => exact hquiet (hvote rfl) (List.Sublist.refl _)
  | store => exact hquiet rfl (List.Sublist.refl _)
  | receive hstep hempty hadd => exact hs.add (.inl rfl) hadd
  | create hcreate hadd => exact hs.add (.inr ⟨_, rfl⟩) hadd
  | discard => exact hquiet rfl List.eraseP_sublist
  | callback succeeded hstep hquorum hfind =>
    have hid := List.find?_some hfind
    simp only [beq_iff_eq] at hid
    subst hid
    cases succeeded with
    | true => exact hs.commit hstep hquorum (List.mem_of_find?_eq_some hfind) hone
    | false =>
      refine hquiet (successes_eq_of_log (.commitCallback ⟨s.height, _, s.quorumProof _, false⟩) ?_ rfl)
        List.eraseP_sublist
      rintro call heq
      cases heq
      rfl

/-- Quorums last to the end of an event, so it is enough that there is one quorum at its end. -/
theorem EngineState.OneQuorum.of_trace {A : Origin → EngineState → ConsensusProposal → Prop}
    {B : ConsensusVote → Prop} (h : Trace X A B s s')
    (hone : s'.OneQuorum) : s.OneQuorum :=
  fun pid pid' hq hq' => hone pid pid' (hq.trace h) (hq'.trace h)

theorem commitsOnce_trace (h : Trace X FreshOnEntry B s s') (hone : s'.OneQuorum) (hs : CommitsOnce c₀ s) :
    CommitsOnce c₀ s' := by
  induction h using ReflTransGen.head_induction_on with
  | refl => exact hs
  | head ht hrest ih => exact ih (hs.transition ht (hone.of_trace (.head ht hrest)))

/-! ## Changes of place -/

theorem CommitsOnce.of_above (hc : Carried s s') (hheight : s'.height = chainHeight c₀ s + 1)
    (hlt : ∀ call ∈ s.successes, call.height < s'.height) (hs : CommitsOnce c₀ s) : CommitsOnce c₀ s' := by
  have hsucc : s'.successes = s.successes := by
    rw [EngineState.successes, EngineState.successes, EngineState.commitCallbacks, EngineState.commitCallbacks, hc.log]
  have hchain : chainHeight c₀ s' = chainHeight c₀ s := by rw [chainHeight, chainHeight, hsucc]
  rw [← hsucc] at hlt
  refine ⟨hc.pending ▸ hs.pending, hsucc ▸ hs.increasing, fun call hcall => (hlt call hcall).le,
    .inl ⟨hchain ▸ hheight, hlt⟩, fun call hcall hh => absurd hh (Nat.ne_of_lt (hlt call hcall))⟩

theorem CommitsOnce.move (hprovider : e.env.reportedHeight = some (chainHeight c₀ s)) (h : Relocation e s s')
    (hs : CommitsOnce c₀ s) : CommitsOnce c₀ s' := by
  have hle : ∀ call ∈ s.successes, call.height < chainHeight c₀ s + 1 := by
    intro call hcall
    have := hs.le call hcall
    rcases hs.height with ⟨heq, hlt⟩ | ⟨heq, -⟩
    · exact heq ▸ hlt call hcall
    · omega
  have habove : s'.height = chainHeight c₀ s + 1 → CommitsOnce c₀ s' :=
    fun hh => hs.of_above h.carried hh (hh ▸ hle)
  cases hm : h with
  | stay hq =>
    refine hs.of_quiet hq.height (by rw [hq.step]; exact Nat.le_refl _) ?_ ?_ (by rw [hq.pending])
    · intro pid hquorum
      unfold EngineState.HasCommitQuorum at *
      rw [hq.height]
      exact hasSupermajority_countVotes hq.registry (fun _ _ _ => h.carried.holds) hquorum
    · rw [EngineState.successes, EngineState.successes, EngineState.commitCallbacks, EngineState.commitCallbacks, hq.log]
  | sync hr hq =>
    rw [hprovider] at hr
    cases hr
    exact habove hq.height
  | roundSync hi hstep hlt hq => exact habove (hq.height.trans (hs.not_finalized hstep).1)
  | nextRound hi hstep hr hq => exact habove (hq.height.trans (hr _ hprovider).symm)
  | nextHeight hi hstep hr hlt hq =>
    rw [hprovider] at hr
    cases hr
    exact habove hq.height
  | fallback hi hstep hr hlt hq =>
    rw [hprovider] at hr
    cases hr
    rcases hs.height with ⟨heq, -⟩ | ⟨heq, -⟩ <;> omega

/-! ## Events -/

/-- The conditions on an event of the loop: the provider reports the height of the chain, no pending proposal is
added again, and there is at most one commit quorum for a height. -/
structure LoopEvent (X : Externals) (c₀ : Nat) (s : EngineState) (e : Event) : Prop where
  input : e.input.fromLoop = true
  provider : e.env.reportedHeight = some (chainHeight c₀ s)
  fresh : AddsFresh X s e
  quorum : (step X s e).OneQuorum

theorem adds_step_lt {o : Origin} {p : ConsensusProposal} (hinput : e.input.fromLoop = true) (h : Adds X e s o p) :
    (relocate e s).step < .commit := by
  cases h with
  | received hin hfork hrelevant hempty hvalid =>
    simp only [relocate, hin, hfork, hrelevant, if_true]
    exact step_syncRound_lt hrelevant
  | created hpropose hlocal hcreate =>
    unfold proposing at hpropose
    split at hpropose
    · rename_i hin; simp [hin, Input.fromLoop] at hinput
    · rename_i hin
      have hguard : s.isBftModeActive = true ∧ s.step = .commit := by simpa using hpropose
      simp only [relocate, hin, hguard, and_self, if_true, step_roundAfterCommitTimeout]
      decide
    · rename_i hin; simp [hin, Input.fromLoop] at hinput
    · cases hpropose

theorem commitsOnce_step (he : LoopEvent X c₀ s e) (hs : CommitsOnce c₀ s) : CommitsOnce c₀ (step X s e) := by
  refine commitsOnce_trace (trace_step (A := FreshOnEntry) e ?_) he.quorum (hs.move he.provider (relocation e s))
  intro o p hadd
  refine ⟨adds_step_lt he.input hadd, ?_⟩
  rw [(relocation e s).carried.pending]
  exact he.fresh o p hadd

theorem lookup_enterPrevoteStep {env : Env} {k : VotePoolKey} (hk : k.voteType ≠ .preVote) :
    (s.enterPrevoteStep X env).2.votePool.lookup k = s.votePool.lookup k := by
  unfold EngineState.enterPrevoteStep
  split
  · rfl
  · dsimp only
    split
    · rfl
    · rename_i pid _
      rcases castVote_cases X env pid .preVote { s with step := .preVote } with ⟨err, heq⟩ | ⟨vote, hvote, heq⟩
      · rw [heq]
      · rw [heq]
        refine AList.lookup_insert_ne ?_
        rintro rfl
        exact hk (ownVote_ok hvote).voteType

theorem lookup_enterProposeStep {env : Env} {k : VotePoolKey} (hk : k.voteType ≠ .preVote) :
    (s.enterProposeStep X env).votePool.lookup k = s.votePool.lookup k := by
  unfold EngineState.enterProposeStep
  split
  · rfl
  · dsimp only
    split
    · split
      · rfl
      · exact lookup_enterPrevoteStep hk
    · rfl

theorem EngineState.HasCommitQuorum.exists_commit {pid : Hash} (hq : s.HasCommitQuorum pid) :
    ∃ k vote, k.voteType = .commit ∧ s.votePool.lookup k = some (vote, pid) := by
  rw [HasCommitQuorum, hasSupermajority_iff] at hq
  have hpos : 0 < s.countCommitsFor s.height pid := by
    by_contra hzero
    obtain ⟨hne, hle⟩ := hq
    rw [Nat.eq_zero_of_not_pos hzero, Nat.zero_mul, Nat.le_zero, Nat.mul_eq_zero] at hle
    exact hle.elim hne (by decide)
  rw [countCommitsFor, countVotes_eq_card, Finset.card_pos] at hpos
  obtain ⟨k, hk⟩ := hpos
  obtain ⟨-, -, ht, vote, hl⟩ := mem_voteKeys.mp hk
  exact ⟨k, vote, ht, hl⟩

theorem oneQuorum_of_no_commits (h : ∀ k, k.voteType = .commit → s.votePool.lookup k = none) : s.OneQuorum := by
  intro pid pid' hq _
  obtain ⟨k, vote, ht, hl⟩ := hq.exists_commit
  rw [h k ht] at hl
  cases hl

theorem lookup_start {env : Env} {k : VotePoolKey} (hk : k.voteType ≠ .preVote) :
    (s.start X env).2.votePool.lookup k = s.votePool.lookup k := by
  have hpool : (s.syncHeightWithBlockchain env).2.votePool = s.votePool := by
    cases hr : env.reportedHeight with
    | none => rw [syncHeight_none hr]
    | some height => rw [(syncHeight_some hr).1]
  unfold EngineState.start
  rcases hsync : s.syncHeightWithBlockchain env with ⟨_ | _, s₁⟩ <;> rw [hsync] at hpool
  · rw [← hpool]
    rfl
  · rw [← hpool]
    simp only [Outcome.andThen]
    split
    · rw [lookup_enterProposeStep hk, (quiet_snapshotValidatorSet _ _).pool]
    · rw [(quiet_snapshotValidatorSet _ _).pool]

theorem relocate_start {env : Env} (hprovider : env.reportedHeight = some c₀) :
    (relocate ⟨env, .start⟩ s).height = c₀ + 1 ∧ (relocate ⟨env, .start⟩ s).step = s.step := by
  have hstate := (syncHeight_some (s := s) hprovider).1
  unfold relocate
  simp only
  rcases hsync : s.syncHeightWithBlockchain env with ⟨_ | _, s₁⟩ <;> rw [hsync] at hstate <;> subst hstate
  · exact ⟨rfl, rfl⟩
  · exact ⟨(quiet_snapshotValidatorSet _ _).height, (quiet_snapshotValidatorSet _ _).step⟩

theorem commitsOnce_start (identity : Option IdentityId) (keypair : Option DilithiumPk) (manager : ValidatorManager)
    {env : Env} (hprovider : env.reportedHeight = some c₀) :
    CommitsOnce c₀ (step X (.new identity keypair manager) ⟨env, .start⟩) := by
  have hc := (relocation ⟨env, .start⟩ (.new identity keypair manager)).carried
  obtain ⟨hheight, hstep⟩ := relocate_start (s := .new identity keypair manager) hprovider
  have hsucc : (relocate ⟨env, .start⟩ (.new identity keypair manager)).successes = [] := by
    rw [EngineState.successes, EngineState.commitCallbacks, hc.log]
    rfl
  have hpending : (relocate ⟨env, .start⟩ (.new identity keypair manager)).pendingProposals = [] := hc.pending
  refine commitsOnce_trace (trace_step (A := FreshOnEntry) _ ?_) ?_ ⟨?_, ?_, ?_, .inl ⟨?_, ?_⟩, ?_⟩
  · intro o p _
    rw [FreshOnEntry, hpending, hstep]
    exact ⟨(by decide : ConsensusStep.propose < .commit), fun q hq => by cases hq⟩
  · exact oneQuorum_of_no_commits fun k hk => lookup_start (by rw [hk]; decide)
  · rw [hpending]
    exact List.nodup_nil
  · rw [hsucc]
    exact List.Pairwise.nil
  · rw [hsucc]
    exact fun call hcall => by cases hcall
  · rw [hheight, chainHeight, hsucc]
    rfl
  · rw [hsucc]
    exact fun call hcall => by cases hcall
  · rw [hsucc]
    exact fun call hcall => by cases hcall

/-! ## Surplus commit votes -/

theorem Finalized.maybeFinalize_ok {env : Env} {call : CommitCallback} {height : Nat} {pid : Hash}
    (hf : Finalized s call) (hround : call.proposal.id ∈ s.proposals)
    (hone : (s.maybeFinalize X env height pid).2.OneQuorum) : (s.maybeFinalize X env height pid).1 = .ok () := by
  have htrace : Trace X (fun _ _ _ => True) (fun _ => True) s (s.maybeFinalize X env height pid).2 := trace_maybeFinalize
  by_cases hq : hasSupermajority (s.countCommitsFor height pid) s.activeCount = true
  · by_cases hh : s.height = height
    · obtain rfl : pid = call.proposal.id := by
        subst hh
        exact hone _ _ (EngineState.HasCommitQuorum.trace htrace hq) (hf.quorum.trace htrace)
      have hraise : s.raiseToCommit = s := if_neg (Nat.not_lt.mpr hf.step)
      have hgone : (s.pendingProposals.find? fun p => p.id == call.proposal.id) = none := by
        rw [List.find?_eq_none]
        intro q hq
        simpa using hf.gone q hq
      subst hh
      simp [EngineState.maybeFinalize, EngineState.processCommittedBlock, hq, hraise, hgone, hround]
    · simp [EngineState.maybeFinalize, hq, hh]
  · simp [EngineState.maybeFinalize, hq]

theorem CommitsOnce.commitVote_ok {env : Env} {v : ConsensusVote} {call : CommitCallback} (ht : v.voteType = .commit)
    (hs : CommitsOnce c₀ s) (hcall : call ∈ s.successes) (hh : call.height = v.height)
    (hround : v.height = s.height → call.proposal.id ∈ s.proposals)
    (hone : (step X s ⟨env, .vote v⟩).OneQuorum) : (handle X ⟨env, .vote v⟩ s).1 = .ok () := by
  have hhandle : handle X ⟨env, .vote v⟩ s = s.onCommitVote X env v := by
    simp [handle, EngineState.onMessageVote, ht]
  unfold step at hone
  rw [hhandle] at hone ⊢
  unfold EngineState.onCommitVote at hone ⊢
  split
  · rfl
  split
  · rfl
  split
  · rfl
  split
  · rfl
  rename_i hgt hlt hsig hmem
  have hheight : v.height = s.height := by omega
  have hf := hs.finalized call hcall (hh.trans hheight)
  have hchecks : s.Checks X v := ⟨hheight, by simpa using hsig, by simpa using hmem⟩
  simp only [hgt, hlt, hsig, hmem, if_false] at hone
  obtain ⟨firstVotes, hacc | ⟨hkey, hacc⟩⟩ := acceptVote_cases v s
  · rw [ht] at hacc
    rw [hacc]
  · rw [ht] at hacc
    have haccept := trace_acceptVote (A := fun _ _ _ => True) (B := fun _ => True) trivial hchecks ht hacc
    rw [hacc] at hone ⊢
    have hf' : Finalized { s with
        firstVotes := firstVotes, votePool := s.votePool.insert v.key (v, v.proposalId) } call :=
      ⟨hf.step, hf.gone, hf.quorum.trace haccept⟩
    exact hf'.maybeFinalize_ok (hround hheight) (by simpa using hone)

/-! ## The result -/

/-- The heights of the successful callbacks of a run of the loop strictly increase, and a commit vote at a
finalized height is no error as long as the finalized proposal is among the proposals of the round. -/
theorem commits_once_per_height (X : Externals) (identity : Option IdentityId) (keypair : Option DilithiumPk)
    (manager : ValidatorManager) (c₀ : Nat) (env : Env) (hprovider : env.reportedHeight = some c₀)
    (events : List Event)
    (hevents : Along (step X) (LoopEvent X c₀) (step X (.new identity keypair manager) ⟨env, .start⟩) events) :
    let s := run (step X) (.new identity keypair manager) (⟨env, .start⟩ :: events)
    (s.successes.map CommitCallback.height).Pairwise (· < ·) ∧
      ∀ env v call, v.voteType = .commit → call ∈ s.successes → call.height = v.height →
        LoopEvent X c₀ s ⟨env, .vote v⟩ → (v.height = s.height → call.proposal.id ∈ s.proposals) →
          (handle X ⟨env, .vote v⟩ s).1 = .ok () := by
  intro s
  have hs : CommitsOnce c₀ (run (step X) (step X (.new identity keypair manager) ⟨env, .start⟩) events) :=
    hevents.invariant (fun _ _ he hs => commitsOnce_step he hs) (commitsOnce_start identity keypair manager hprovider)
  exact ⟨hs.increasing, fun env v call ht hcall hh he hround => hs.commitVote_ok ht hcall hh hround he.quorum⟩

/-! ## A second commit at a height -/

instance : Decidable (s.HasCommitQuorum pid) := inferInstanceAs (Decidable (_ = true))

instance : Decidable s.OneQuorum :=
  decidable_of_iff (∀ e ∈ s.votePool.entries, ∀ e' ∈ s.votePool.entries,
    s.HasCommitQuorum e.2.2 → s.HasCommitQuorum e'.2.2 → e.2.2 = e'.2.2) (by
      constructor
      · intro hall pid pid' hq hq'
        obtain ⟨k, vote, -, hl⟩ := hq.exists_commit
        obtain ⟨k', vote', -, hl'⟩ := hq'.exists_commit
        exact hall ⟨k, vote, pid⟩ (HashMap.mem_entries_iff.mpr hl) ⟨k', vote', pid'⟩
          (HashMap.mem_entries_iff.mpr hl') hq hq'
      · intro hone e _ e' _ hq hq'
        exact hone _ _ hq hq')

instance : Decidable (LoopEvent X c₀ s e) :=
  decidable_of_iff (e.input.fromLoop = true ∧ e.env.reportedHeight = some (chainHeight c₀ s) ∧
      (∀ o p, Adds X e s o p → ∀ q ∈ s.pendingProposals, q.id ≠ p.id) ∧ (step X s e).OneQuorum)
    ⟨fun ⟨hi, hp, hf, hq⟩ => ⟨hi, hp, hf, hq⟩, fun h => ⟨h.input, h.provider, h.fresh, h.quorum⟩⟩

/-- The engine admits proposal 7 in round 0 and times out into round 1. -/
def admitThenTimeout : List Input := [.start, .propose (proposalOf 2 0 7), .timer, .timer, .timer]

def threeCommits : List Input :=
  [.vote (voteOf 2 .commit 0 7), .vote (voteOf 3 .commit 0 7), .vote (voteOf 4 .commit 0 7)]

/-- After a replay of the proposal in round 1 a surplus commit vote commits it again. Without the replay the
same vote is an error. -/
theorem surplus_commit_vote_after_timeout :
    ((step zeroScheme (runOfOne (admitThenTimeout ++ .propose (proposalOf 2 0 7) :: threeCommits))
        ⟨chainAt 1, .vote (voteOf 2 .commit 1 7)⟩).successes.map CommitCallback.height = [1, 1]) ∧
      (runOfOne (admitThenTimeout ++ threeCommits)).successes.map CommitCallback.height = [1] ∧
      (handle zeroScheme ⟨chainAt 1, .vote (voteOf 2 .commit 1 7)⟩
        (runOfOne (admitThenTimeout ++ threeCommits))).1.isOk = false := by
  decide +kernel

/-- Four commit votes in the round of the proposal, with the chain at height 1 for the last. -/
theorem commits_once_at_height_one :
    let s := runOfOne (.start :: .propose (proposalOf 2 0 7) :: threeCommits)
    (s.successes.map CommitCallback.height).Pairwise (· < ·) ∧
      (∃ call ∈ s.successes, call.height = 1) ∧
      (handle zeroScheme ⟨chainAt 1, .vote (voteOf 2 .commit 1 7)⟩ s).1 = .ok () := by
  intro s
  obtain ⟨hpairwise, hsurplus⟩ := commits_once_per_height zeroScheme (some 1) (some 11) fourValidators 0 (chainAt 0) rfl
    (onEmptyChain (.propose (proposalOf 2 0 7) :: threeCommits)) (by decide +kernel)
  obtain ⟨call, hcall, hheight, hround⟩ :
    ∃ call ∈ s.successes, call.height = 1 ∧ call.proposal.id ∈ s.proposals := by decide +kernel
  exact ⟨hpairwise, ⟨call, hcall, hheight⟩, hsurplus _ _ call rfl hcall hheight (by decide +kernel) fun _ => hround⟩

end SovereignNetwork.Engine
