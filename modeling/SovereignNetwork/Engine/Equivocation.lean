import SovereignNetwork.Engine.Lemmas.Place
import SovereignNetwork.Engine.Quorums
import SovereignNetwork.Lib.Except

/-!
# An engine does not equivocate

A prevote is guarded by the step field alone and a proposal by nothing, so both rest on the place of the
engine moving forward.
-/

namespace SovereignNetwork.Engine

open Lib Validators

variable {X : Externals} {A : Origin → EngineState → ConsensusProposal → Prop}
  {B : ConsensusVote → Prop} {s s' : EngineState} {e : Event}

/-! ## Own votes in the pool -/

theorem Transition.mem_pool {k : VotePoolKey} (h : Transition X A B s s') (hk : k ∈ s.votePool) : k ∈ s'.votePool := by
  cases h with
  | quiet h => rw [h.pool]; exact hk
  | prevote => exact (AList.mem_insert _).mpr (.inr hk)
  | latePrevote => exact (AList.mem_insert _).mpr (.inr hk)
  | precommit => exact (AList.mem_insert _).mpr (.inr hk)
  | commit => exact (AList.mem_insert _).mpr (.inr hk)
  | store => exact (AList.mem_insert _).mpr (.inr hk)
  | _ => exact hk

theorem Transition.cast_cases {v : ConsensusVote} (h : Transition X A B s s') (hv : .voteCast v ∈ s'.log) :
    .voteCast v ∈ s.log ∨ Casts X s v ∧ s'.validatorIdentity = some v.voter ∧ v.key ∈ s'.votePool ∧
      (v.voteType = .preVote → .preVote ≤ s'.step) := by
  have hnew : ∀ {s₁ : EngineState} {env : Env} {vote : ConsensusVote}, s₁.height = s.height → s₁.round = s.round →
      s₁.validatorIdentity = s.validatorIdentity → s₁.log = s.log → Casts X s vote →
      (vote.voteType = .preVote → .preVote ≤ s₁.step) → .voteCast v ∈ (s₁.recordOwnVote env vote).log →
      .voteCast v ∈ s.log ∨ Casts X s v ∧ (s₁.recordOwnVote env vote).validatorIdentity = some v.voter ∧
        v.key ∈ (s₁.recordOwnVote env vote).votePool ∧
        (v.voteType = .preVote → .preVote ≤ (s₁.recordOwnVote env vote).step) := by
    intro s₁ env vote hh hr hid hlog hcast hstep hmem
    rcases List.mem_append.mp hmem with hmem | hmem
    · exact .inl (hlog ▸ hmem)
    · cases List.mem_singleton.mp hmem
      have hkey : s₁.ownKey v.voteType v.voter = v.key := by
        simp [EngineState.ownKey, ConsensusVote.key, hh, hr, hcast.own.height, hcast.own.round]
      exact .inr ⟨hcast, hid.trans hcast.own.identity, (AList.mem_insert _).mpr (.inl hkey.symm), hstep⟩
  cases h with
  | quiet h => rw [h.log] at hv; exact .inl hv
  | prevote hstep hpid hvote =>
    exact hnew rfl rfl rfl rfl (.prevote (ownVote_ok hvote) hpid (.inl hstep)) (fun _ => Nat.le_refl _) hv
  | latePrevote hstep hf hpid hvote =>
    have ho := ownVote_ok hvote
    exact hnew rfl rfl rfl rfl (.prevote ho hpid (.inr ⟨hstep, ho.lookup_none hf⟩))
      (fun _ => by rw [hstep]; exact Nat.le_refl _) hv
  | precommit hstep hf hquorum hvote =>
    have ho := ownVote_ok hvote
    exact hnew rfl rfl rfl rfl (.precommit ho (ho.lookup_none hf) hquorum)
      (fun _ => by rw [hstep]; decide) hv
  | commit hstep hf hquorum hvote =>
    have ho := ownVote_ok hvote
    exact hnew rfl rfl rfl rfl (.commit ho (ho.lookup_none hf) hquorum)
      (fun ht => by rw [ho.voteType] at ht; cases ht) hv
  | create =>
    rcases List.mem_append.mp hv with hv | hv
    · exact .inl hv
    · cases List.mem_singleton.mp hv
  | callback =>
    rcases List.mem_append.mp hv with hv | hv
    · exact .inl hv
    · cases List.mem_singleton.mp hv
  | raise => exact .inl hv
  | store => exact .inl hv
  | receive => exact .inl hv
  | discard => exact .inl hv

/-! ## Votes -/

/-- The state of the engine remembers its own votes: where they were cast, and under which keys. -/
structure EngineState.VotesKnown (s : EngineState) : Prop where
  place : ∀ v, .voteCast v ∈ s.log → s.AtOrAfter v.height v.round
  stored : ∀ v, .voteCast v ∈ s.log → s.validatorIdentity = some v.voter ∧ v.key ∈ s.votePool
  prevoted : ∀ v, .voteCast v ∈ s.log → v.voteType = .preVote → v.height = s.height → v.round = s.round →
    .preVote ≤ s.step

theorem EngineState.VotesKnown.move (hheight : HeightKept s e) (hround : RoundKept s e) (h : Relocation e s s')
    (hs : s.VotesKnown) : s'.VotesKnown where
  place := fun v hv => h.atOrAfter hheight hround (hs.place v (h.carried.log ▸ hv))
  stored := by
    intro v hv
    obtain ⟨hid, hkey⟩ := hs.stored v (h.carried.log ▸ hv)
    rw [h.carried.pool]
    rcases h.carried.identity with hnone | heq
    · rw [hnone] at hid; cases hid
    · exact ⟨heq.trans hid, hkey⟩
  prevoted := by
    intro v hv ht hh hr
    have hv := h.carried.log ▸ hv
    rcases h.forward hheight hround with hlt | ⟨hh', hr', hstep, -⟩
    · -- a place reached for the first time holds no vote yet
      have := hs.place v hv
      unfold EngineState.AtOrAfter at this
      unfold EngineState.After at hlt
      omega
    · rw [hstep]
      exact hs.prevoted v hv ht (hh.trans hh') (hr.trans hr')

theorem EngineState.VotesKnown.transition (h : Transition X A B s s') (hs : s.VotesKnown) : s'.VotesKnown where
  place := by
    intro v hv
    rcases h.cast_cases hv with hv | ⟨hcast, -⟩
    · exact (hs.place v hv).of_place h.place.1 h.place.2
    · exact .inr ⟨hcast.own.height.trans h.place.1.symm, by rw [hcast.own.round, h.place.2]⟩
  stored := by
    intro v hv
    rcases h.cast_cases hv with hv | ⟨-, hid, hkey, -⟩
    · obtain ⟨hid, hkey⟩ := hs.stored v hv
      refine ⟨?_, h.mem_pool hkey⟩
      rcases h.identity with hnone | heq
      · rw [hnone] at hid; cases hid
      · exact heq.trans hid
    · exact ⟨hid, hkey⟩
  prevoted := by
    intro v hv ht hh hr
    rcases h.cast_cases hv with hv | ⟨-, -, -, hstep⟩
    · have hle := hs.prevoted v hv ht (hh.trans h.place.1) (hr.trans h.place.2)
      exact Nat.le_trans hle h.step_le
    · exact hstep ht

theorem Casts.fresh {v v' : ConsensusVote} (hs : s.VotesKnown) (hcast : Casts X s v) (hv' : .voteCast v' ∈ s.log)
    (hh : v'.height = v.height) (hr : v'.round = v.round) : v'.voteType ≠ v.voteType := by
  intro ht
  obtain ⟨hid, hkey⟩ := hs.stored v' hv'
  have hown := hcast.own
  have hvoter : v'.voter = v.voter := Option.some.inj (hid.symm.trans hown.identity)
  have heq : v'.key = v.key := by simp [ConsensusVote.key, hh, hr, ht, hvoter]
  have hpresent : s.votePool.lookup v.key ≠ none := by
    rw [← heq, Ne, AList.lookup_eq_none]
    exact not_not.mpr hkey
  cases hcast with
  | prevote own hpid hstep =>
    rcases hstep with hstep | ⟨-, hnone⟩
    · have hle := hs.prevoted v' hv' (ht.trans own.voteType) (hh.trans own.height) (hr.trans own.round)
      rw [hstep] at hle
      exact absurd hle (by decide)
    · exact hpresent hnone
  | precommit own hnone => exact hpresent hnone
  | commit own hnone => exact hpresent hnone

/-- The votes cast contain no two for one height, round and type with different proposals. -/
def EngineState.VotesConsistent (s : EngineState) : Prop :=
  ∀ v ∈ s.castVotes, ∀ v' ∈ s.castVotes, v.height = v'.height → v.round = v'.round → v.voteType = v'.voteType →
    v.proposalId = v'.proposalId

theorem EngineState.VotesConsistent.transition (hknown : s.VotesKnown) (h : Transition X A B s s')
    (hs : s.VotesConsistent) : s'.VotesConsistent := by
  intro v hv v' hv' hh hr ht
  rw [EngineState.mem_castVotes] at hv hv'
  rcases h.log_eq with heq | ⟨eff, hnew, heq⟩
  · rw [heq] at hv hv'
    exact hs v (EngineState.mem_castVotes.mpr hv) v' (EngineState.mem_castVotes.mpr hv') hh hr ht
  · rw [heq, List.mem_append, List.mem_singleton] at hv hv'
    -- at most one of the two votes is new
    rcases hv with hv | rfl
    · rcases hv' with hv' | rfl
      · exact hs v (EngineState.mem_castVotes.mpr hv) v' (EngineState.mem_castVotes.mpr hv') hh hr ht
      · cases hnew with
        | vote hcast => exact absurd ht (hcast.fresh hknown hv hh hr)
    · rcases hv' with hv' | heq'
      · cases hnew with
        | vote hcast => exact absurd ht.symm (hcast.fresh hknown hv' hh.symm hr.symm)
      · cases heq'
        rfl

/-! ## Proposals -/

theorem createProposal_ok {env : Env} {p : ConsensusProposal} (h : s.createProposal X env = .ok p) :
    p.height = s.height ∧ p.round = s.round := by
  unfold EngineState.createProposal at h
  cases hid : s.validatorIdentity with
  | none => simp [hid, throw_eq_ok] at h
  | some id =>
    simp only [hid, bind_eq_ok] at h
    obtain ⟨previousHash, -, blockData, -, proof, -, h⟩ := h
    cases hv : s.validatorManager.getValidator id with
    | none => simp [hv, throw_eq_ok] at h
    | some validator =>
      simp only [hv, bind_eq_ok, pure_eq_ok] at h
      obtain ⟨signature, -, rfl⟩ := h
      exact ⟨rfl, rfl⟩

/-- The engine has not created a proposal for the height and round of this one. -/
def FirstOfPlace (o : Origin) (s : EngineState) (p : ConsensusProposal) : Prop :=
  match o with
  | .received => True
  | .created => ∀ q ∈ s.createdProposals, ¬ (q.height = p.height ∧ q.round = p.round)

def EngineState.ProposalsKnown (s : EngineState) : Prop :=
  ∀ p, .proposalCreated p ∈ s.log → s.AtOrAfter p.height p.round

/-- The proposals created contain no two for one height and round with different ids. -/
def EngineState.ProposalsConsistent (s : EngineState) : Prop :=
  ∀ p ∈ s.createdProposals, ∀ q ∈ s.createdProposals, p.height = q.height → p.round = q.round → p.id = q.id

theorem EngineState.ProposalsKnown.transition (h : Transition X A B s s') (hs : s.ProposalsKnown) :
    s'.ProposalsKnown := by
  intro p hp
  rcases h.log_cases hp with hp | hnew
  · exact (hs p hp).of_place h.place.1 h.place.2
  · cases hnew with
    | proposal hcreate hadd =>
      obtain ⟨hh, hr⟩ := createProposal_ok hcreate
      exact .inr ⟨hh.trans h.place.1.symm, by rw [hr, h.place.2]⟩

theorem EngineState.ProposalsConsistent.transition (h : Transition X FirstOfPlace B s s')
    (hs : s.ProposalsConsistent) : s'.ProposalsConsistent := by
  intro p hp q hq hh hr
  rw [EngineState.mem_createdProposals] at hp hq
  rcases h.log_eq with heq | ⟨eff, hnew, heq⟩
  · rw [heq] at hp hq
    exact hs p (EngineState.mem_createdProposals.mpr hp) q (EngineState.mem_createdProposals.mpr hq) hh hr
  · rw [heq, List.mem_append, List.mem_singleton] at hp hq
    rcases hp with hp | rfl
    · rcases hq with hq | rfl
      · exact hs p (EngineState.mem_createdProposals.mpr hp) q (EngineState.mem_createdProposals.mpr hq) hh hr
      · cases hnew with
        | proposal hcreate hadd => exact absurd ⟨hh, hr⟩ (hadd p (EngineState.mem_createdProposals.mpr hp))
    · rcases hq with hq | heq'
      · cases hnew with
        | proposal hcreate hadd =>
          exact absurd ⟨hh.symm, hr.symm⟩ (hadd q (EngineState.mem_createdProposals.mpr hq))
      · cases heq'
        rfl

/-! ## Runs -/

instance (o : Origin) (s : EngineState) (p : ConsensusProposal) : Decidable (FirstOfPlace o s p) :=
  match o with
  | .received => inferInstanceAs (Decidable True)
  | .created => inferInstanceAs (Decidable (∀ q ∈ s.createdProposals, ¬ (q.height = p.height ∧ q.round = p.round)))

/-- Outside the commit timeout the engine proposes only where it has not proposed before. -/
def ProposesOnce (X : Externals) (s : EngineState) (e : Event) : Prop :=
  e.input.isTimer = false → ∀ o p, Adds X e s o p → FirstOfPlace o s p

instance (s : EngineState) (e : Event) : Decidable (ProposesOnce X s e) := inferInstanceAs (Decidable (_ → _))

structure EngineState.Honest (s : EngineState) : Prop where
  votesKnown : s.VotesKnown
  votes : s.VotesConsistent
  proposalsKnown : s.ProposalsKnown
  proposals : s.ProposalsConsistent

theorem firstOfPlace_of_timer (hheight : HeightKept s e) (hround : RoundKept s e) (hs : s.ProposalsKnown)
    (hinput : e.input = .timer) {p : ConsensusProposal} (hadd : Adds X e s .created p) :
    FirstOfPlace .created (relocate e s) p := by
  cases hadd with
  | created hpropose hlocal hcreate =>
    obtain ⟨hbft, hstep⟩ : s.isBftModeActive = true ∧ s.step = .commit := by simpa [proposing, hinput] using hpropose
    have hplace : relocate e s = s.roundAfterCommitTimeout e.env := by simp [relocate, hinput, hbft, hstep]
    obtain ⟨hh, hr⟩ := createProposal_ok hcreate
    intro q hq heq
    rw [EngineState.mem_createdProposals, (relocation e s).carried.log] at hq
    rcases (relocation e s).forward hheight hround with hlt | ⟨-, -, hsame, -⟩
    · have hle := hs q hq
      unfold EngineState.AtOrAfter at hle
      unfold EngineState.After at hlt
      omega
    · rw [hplace, step_roundAfterCommitTimeout, hstep] at hsame
      cases hsame

theorem honest_step (hheight : HeightKept s e) (hround : RoundKept s e) (honce : ProposesOnce X s e)
    (hs : s.Honest) : (step X s e).Honest := by
  have hadd : ∀ o p, Adds X e s o p → FirstOfPlace o (relocate e s) p := by
    intro o p hadd
    cases o with
    | received => trivial
    | created =>
      by_cases hinput : e.input = .timer
      · exact firstOfPlace_of_timer hheight hround hs.proposalsKnown hinput hadd
      · intro q hq
        rw [EngineState.mem_createdProposals, (relocation e s).carried.log] at hq
        exact honce (Bool.eq_false_iff.mpr fun h => hinput (isTimer_iff.mp h)) .created p hadd q
          (EngineState.mem_createdProposals.mpr hq)
  refine step_invariant (I := EngineState.Honest) hadd ?_ ?_ hs
  · intro hs
    have hmove := relocation e s
    refine ⟨hs.votesKnown.move hheight hround hmove, ?_, ?_, ?_⟩
    · intro v hv v' hv'
      rw [EngineState.mem_castVotes, hmove.carried.log, ← EngineState.mem_castVotes] at hv hv'
      exact hs.votes v hv v' hv'
    · intro p hp
      exact hmove.atOrAfter hheight hround (hs.proposalsKnown p (hmove.carried.log ▸ hp))
    · intro p hp q hq
      rw [EngineState.mem_createdProposals, hmove.carried.log, ← EngineState.mem_createdProposals] at hp hq
      exact hs.proposals p hp q hq
  · intro s s' ht hs
    exact ⟨hs.votesKnown.transition ht, hs.votes.transition hs.votesKnown ht, hs.proposalsKnown.transition ht,
      hs.proposals.transition ht⟩

theorem honest_new (identity : Option IdentityId) (keypair : Option DilithiumPk) (manager : ValidatorManager) :
    (EngineState.new identity keypair manager).Honest := by
  refine ⟨⟨?_, ?_, ?_⟩, ?_, ?_, ?_⟩ <;> intro v hv <;> exact absurd hv List.not_mem_nil

/-- With a provider whose height never decreases, an engine does not equivocate in any run in which no commit
timeout overflows the round and no other event proposes twice at one place. -/
theorem engine_never_equivocates (identity : Option IdentityId) (keypair : Option DilithiumPk)
    (manager : ValidatorManager) (events : List Event)
    (hprovider : (reportedHeights events).Pairwise (· ≤ ·))
    (hevents : Along (step X) (fun s e => RoundKept s e ∧ ProposesOnce X s e) (.new identity keypair manager) events) :
    (run (step X) (.new identity keypair manager) events).VotesConsistent ∧
      (run (step X) (.new identity keypair manager) events).ProposalsConsistent := by
  have hheights : Along (step X) HeightKept (.new identity keypair manager) events :=
    along_heightKept events hprovider fun height _ => Nat.zero_le _
  have hhonest := (hheights.and hevents).invariant (I := EngineState.Honest)
    (fun s e h hs => honest_step h.1 h.2.1 h.2.2 hs) (honest_new identity keypair manager)
  exact ⟨hhonest.votes, hhonest.proposals⟩

/-! ## The round that wraps -/

/-- A forged proposal moves the engine to the last round before it is checked; four timeouts later the round is
zero again. -/
def wrapRound : List Input :=
  [.start, .propose (proposalOf 2 0 7), .propose (proposalOf 9 (2 ^ 32 - 1) 5), .timer, .timer, .timer, .timer,
    .propose (proposalOf 2 0 8)]

/-- The engine prevotes the proposals 7 and 8 in round 0. -/
theorem prevotes_twice_after_wrap :
    (reportedHeights (onEmptyChain wrapRound)).Pairwise (· ≤ ·) ∧
      ∃ v ∈ (runOfOne wrapRound).castVotes, ∃ v' ∈ (runOfOne wrapRound).castVotes,
        v.height = v'.height ∧ v.round = v'.round ∧ v.voteType = v'.voteType ∧ v.proposalId ≠ v'.proposalId := by
  constructor <;> decide +kernel

/-- Two proposals compete in round 0, and timeouts lead through the rounds 3 and 7, in which the engine proposes. A
competing proposal comes in round 3. -/
def twoTurns : List Input :=
  [.start, .propose (proposalOf 2 0 7), .propose (proposalOf 2 0 8), .vote (voteOf 2 .preVote 0 7),
    .vote (voteOf 3 .preVote 0 7)] ++ List.replicate 12 .timer ++ [.propose (proposalOf 2 3 9)] ++ List.replicate 16 .timer

theorem two_turns_never_equivocate :
    (runOfOne twoTurns).VotesConsistent ∧ (runOfOne twoTurns).ProposalsConsistent ∧
      (runOfOne twoTurns).castVotes.map (fun v => (v.round, v.voteType)) =
        [(0, .preVote), (0, .preCommit), (3, .preVote), (7, .preVote)] ∧
      (runOfOne twoTurns).createdProposals.map (fun p => (p.height, p.round)) = [(1, 3), (1, 7)] := by
  obtain ⟨hvotes, hproposals⟩ := engine_never_equivocates (X := zeroScheme) (some 1) (some 11) fourValidators
    (onEmptyChain twoTurns) (by decide +kernel) (by decide +kernel)
  exact ⟨hvotes, hproposals, by decide +kernel, by decide +kernel⟩

end SovereignNetwork.Engine
