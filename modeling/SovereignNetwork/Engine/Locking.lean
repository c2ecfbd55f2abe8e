import SovereignNetwork.Engine.Lemmas.Place
import SovereignNetwork.Engine.Quorums

/-!
# Prevotes and locks

The engine prevotes the proposal it admits, and nothing it precommitted before stands in the way.
-/

namespace SovereignNetwork.Engine

open Lib Validators

variable {X : Externals} {A : Origin → EngineState → ConsensusProposal → Prop}
  {B : ConsensusVote → Prop} {s s' : EngineState} {e : Event}

/-- The pool holds a supermajority of prevotes for the proposal in a round strictly between the two. -/
def EngineState.Unlocks (s : EngineState) (h r r' : Nat) (pid : Hash) : Prop :=
  ∃ r₁, r < r₁ ∧ r₁ < r' ∧ hasSupermajority (s.countPrevotesFor h r₁ pid) s.activeCount = true

/-- A proposal that every earlier precommit of the height allows the engine to prevote in the round. -/
def EngineState.Allows (s : EngineState) (h r : Nat) (pid : Hash) : Prop :=
  ∀ a ∈ s.castVotes, a.voteType = .preCommit → a.height = h → a.round < r → a.proposalId ≠ pid →
    s.Unlocks h a.round r pid

/-- The proposal an event adds before the precommit step respects the locks. -/
def LockKept (X : Externals) (s : EngineState) (e : Event) : Prop :=
  ∀ o p, Adds X e s o p → (relocate e s).step ≤ .preVote →
    s.Allows (relocate e s).height (relocate e s).round p.id

instance (s : EngineState) (h r r' : Nat) (pid : Hash) : Decidable (s.Unlocks h r r' pid) :=
  decidable_of_iff (∃ r₁ ∈ List.range r', r < r₁ ∧ hasSupermajority (s.countPrevotesFor h r₁ pid) s.activeCount = true)
    (by simp only [List.mem_range, EngineState.Unlocks]; exact exists_congr fun _ => and_left_comm)

instance (s : EngineState) (h r : Nat) (pid : Hash) : Decidable (s.Allows h r pid) :=
  inferInstanceAs (Decidable (∀ a ∈ s.castVotes, _))

instance (s : EngineState) (e : Event) : Decidable (LockKept X s e) :=
  inferInstanceAs (Decidable (∀ o p, Adds X e s o p → _))

/-! ## The proposals of the round -/

def EngineState.ProposalsAllowed (s : EngineState) : Prop :=
  s.step ≤ .preVote → ∀ pid ∈ s.proposals, s.Allows s.height s.round pid

/-- What is known of an added proposal, in the state it is added in. -/
def AllowedOnEntry (_ : Origin) (s : EngineState) (p : ConsensusProposal) : Prop :=
  s.step ≤ .preVote → s.Allows s.height s.round p.id

def EngineState.HeightsKnown (s : EngineState) : Prop := ∀ v ∈ s.castVotes, v.height ≤ s.height

theorem EngineState.Unlocks.transition {h r : Nat} {pid : Hash} (ht : Transition X A B s s')
    (hu : s.Unlocks h r s.round pid) : s'.Unlocks h r s.round pid := by
  obtain ⟨r₁, hlt, hlt', hq⟩ := hu
  refine ⟨r₁, hlt, hlt', hasSupermajority_countVotes ht.registry (fun r₂ id hr hh => ?_) hq⟩
  obtain rfl := beq_iff_eq.mp hr
  exact ht.holds (.inr (.inl (Nat.ne_of_lt hlt'))) hh

theorem EngineState.Allows.transition {pid : Hash} (ht : Transition X A B s s') (hs : s.Allows s.height s.round pid) :
    s'.Allows s'.height s'.round pid := by
  intro a ha htype hh hr hne
  rw [ht.place.1] at hh
  rw [ht.place.2] at hr
  rw [ht.place.1, ht.place.2]
  rw [EngineState.mem_castVotes] at ha
  rcases ht.log_cases ha with ha | hnew
  · exact (hs a (EngineState.mem_castVotes.mpr ha) htype hh hr hne).transition ht
  · cases hnew with
    | vote hcast =>
      rw [hcast.own.round] at hr
      exact absurd hr (Nat.lt_irrefl _)

theorem EngineState.HeightsKnown.transition (ht : Transition X A B s s') (hs : s.HeightsKnown) : s'.HeightsKnown := by
  intro v hv
  rw [EngineState.mem_castVotes] at hv
  rw [ht.place.1]
  rcases ht.log_cases hv with hv | hnew
  · exact hs v (EngineState.mem_castVotes.mpr hv)
  · cases hnew with
    | vote hcast => exact hcast.own.height.le

theorem EngineState.ProposalsAllowed.transition (ht : Transition X AllowedOnEntry B s s') (hs : s.ProposalsAllowed) :
    s'.ProposalsAllowed := by
  intro hstep pid hpid
  have hstep' : s.step ≤ .preVote := Nat.le_trans ht.step_le hstep
  refine EngineState.Allows.transition ht ?_
  have hold := hs hstep'
  cases ht with
  | quiet h => rw [h.proposals] at hpid; exact hold pid hpid
  | receive hlt hempty hadd =>
    rcases List.mem_append.mp hpid with hpid | hpid
    · exact hold pid hpid
    · rw [List.mem_singleton.mp hpid]
      exact hadd hstep'
  | create hcreate hadd =>
    rcases List.mem_append.mp hpid with hpid | hpid
    · exact hold pid hpid
    · rw [List.mem_singleton.mp hpid]
      exact hadd hstep'
  | _ => exact hold pid hpid

theorem Carried.allows (hc : Carried s s') {h r : Nat} {pid : Hash} (hs : s.Allows h r pid) : s'.Allows h r pid := by
  intro a ha htype hh hr hne
  rw [EngineState.mem_castVotes, hc.log, ← EngineState.mem_castVotes] at ha
  obtain ⟨r₁, hlt, hlt', hq⟩ := hs a ha htype hh hr hne
  exact ⟨r₁, hlt, hlt', hasSupermajority_countVotes hc.registry (fun _ _ _ => hc.holds) hq⟩

theorem EngineState.ProposalsAllowed.move (hheight : HeightKept s e) (hknown : s.HeightsKnown)
    (h : Relocation e s s') (hs : s.ProposalsAllowed) : s'.ProposalsAllowed := by
  have hkeep : s'.height = s.height → s'.round = s.round → s'.step = s.step → s'.proposals = s.proposals →
      s'.ProposalsAllowed := by
    intro hh hr hst hp hstep pid hpid
    rw [hst] at hstep
    rw [hp] at hpid
    rw [hh, hr]
    exact h.carried.allows (hs hstep pid hpid)
  have hnil : s'.proposals = [] → s'.ProposalsAllowed := by
    intro hp _ pid hpid
    rw [hp] at hpid
    cases hpid
  cases hm : h with
  | stay h => exact hkeep h.height h.round h.step h.proposals
  | sync hr hq =>
    have hh : s'.height = _ + 1 := hq.height
    have hle := hheight _ hr
    by_cases heq : s'.height = s.height
    · exact hkeep heq hq.round hq.step hq.proposals
    · -- no vote has been cast at a height that is reached for the first time
      intro _ pid _ a ha _ hah
      rw [EngineState.mem_castVotes, h.carried.log, ← EngineState.mem_castVotes] at ha
      have := hknown a ha
      omega
  | roundSync hi hst hlt hq => exact hnil hq.proposals
  | nextRound hi hst hr hq => exact hnil hq.proposals
  | nextHeight hi hst hr hlt hq => exact hnil hq.proposals
  | fallback hi hst hr hlt hq => exact hnil hq.proposals

/-! ## The votes of one event -/

/-- The votes since the log was `base` were cast at the current place, and the prevotes among them are allowed. -/
def EngineState.AllowedSince (base : List Effect) (s : EngineState) : Prop :=
  ∃ tail, s.log = base ++ tail ∧ ∀ v, .voteCast v ∈ tail → v.height = s.height ∧ v.round = s.round ∧
    (v.voteType = .preVote → s.Allows s.height s.round v.proposalId)

theorem EngineState.AllowedSince.transition {base : List Effect} (ht : Transition X AllowedOnEntry B s s')
    (hallowed : s.ProposalsAllowed) (hs : s.AllowedSince base) : s'.AllowedSince base := by
  obtain ⟨tail, hlog, htail⟩ := hs
  have hold : ∀ v, .voteCast v ∈ tail → v.height = s'.height ∧ v.round = s'.round ∧
      (v.voteType = .preVote → s'.Allows s'.height s'.round v.proposalId) := by
    intro v hv
    obtain ⟨hh, hr, hall⟩ := htail v hv
    exact ⟨hh.trans ht.place.1.symm, hr.trans ht.place.2.symm, fun htype => (hall htype).transition ht⟩
  rcases ht.log_eq with heq | ⟨eff, hnew, heq⟩
  · exact ⟨tail, heq.trans hlog, hold⟩
  · refine ⟨tail ++ [eff], by rw [heq, hlog, List.append_assoc], fun v hv => ?_⟩
    rcases List.mem_append.mp hv with hv | hv
    · exact hold v hv
    · cases List.mem_singleton.mp hv
      cases hnew with
      | vote hcast =>
        refine ⟨hcast.own.height.trans ht.place.1.symm, hcast.own.round.trans ht.place.2.symm, fun htype => ?_⟩
        cases hcast with
        | prevote own hpid hstep =>
          obtain rfl := own.proposalId
          have hle : s.step ≤ .preVote := by
            rcases hstep with hstep | ⟨hstep, -⟩ <;> rw [hstep] <;> decide
          exact (hallowed hle _ hpid).transition ht
        | precommit own => rw [own.voteType] at htype; cases htype
        | commit own => rw [own.voteType] at htype; cases htype

def newVotes (X : Externals) (s : EngineState) (e : Event) : List ConsensusVote :=
  (step X s e).castVotes.drop s.castVotes.length

structure EngineState.LockInvariant (s : EngineState) : Prop where
  heights : s.HeightsKnown
  allowed : s.ProposalsAllowed

theorem LockInvariant.relocate (hheight : HeightKept s e) (hs : s.LockInvariant) : (relocate e s).LockInvariant := by
  refine ⟨fun v hv => ?_, hs.allowed.move hheight hs.heights (relocation e s)⟩
  rw [EngineState.mem_castVotes, (relocation e s).carried.log, ← EngineState.mem_castVotes] at hv
  exact (hs.heights v hv).trans ((relocation e s).height_le hheight)

theorem lockInvariant_trace {base : List Effect} (h : Trace X AllowedOnEntry B s s') (hs : s.LockInvariant)
    (hbase : s.AllowedSince base) : s'.LockInvariant ∧ s'.AllowedSince base :=
  trace_invariant (I := fun s => s.LockInvariant ∧ s.AllowedSince base)
    (fun _ _ ht hI => ⟨⟨hI.1.heights.transition ht, hI.1.allowed.transition ht⟩, hI.2.transition ht hI.1.allowed⟩)
    h ⟨hs, hbase⟩

theorem lockInvariant_step (hheight : HeightKept s e) (hlock : LockKept X s e) (hs : s.LockInvariant) :
    (step X s e).LockInvariant ∧ (step X s e).AllowedSince s.log := by
  refine lockInvariant_trace (trace_step e ?_) (LockInvariant.relocate hheight hs)
    ⟨[], by rw [(relocation e s).carried.log, List.append_nil], fun v hv => absurd hv List.not_mem_nil⟩
  intro o p hadd hstep
  exact (relocation e s).carried.allows (hlock o p hadd hstep)

theorem lockInvariant_run (identity : Option IdentityId) (keypair : Option DilithiumPk) (manager : ValidatorManager)
    {events : List Event}
    (hevents : Along (step X) (fun s e => HeightKept s e ∧ LockKept X s e) (.new identity keypair manager) events) :
    (run (step X) (.new identity keypair manager) events).LockInvariant := by
  refine hevents.invariant (fun s e h hs => (lockInvariant_step h.1 h.2 hs).1) ⟨?_, ?_⟩
  · intro v hv; cases hv
  · intro _ pid hpid; cases hpid

/-- With a provider whose height never decreases, and proposals that respect the locks, the engine prevotes a
proposal other than the one it precommitted in an earlier round of the height only if its pool holds a
supermajority of prevotes for it in a round in between. -/
theorem prevote_respects_lock (identity : Option IdentityId) (keypair : Option DilithiumPk)
    (manager : ValidatorManager) (events : List Event) (e : Event)
    (hprovider : (reportedHeights (events ++ [e])).Pairwise (· ≤ ·))
    (hevents : Along (step X) (LockKept X) (.new identity keypair manager) (events ++ [e])) :
    ∀ v ∈ newVotes X (run (step X) (.new identity keypair manager) events) e, v.voteType = .preVote →
      (step X (run (step X) (.new identity keypair manager) events) e).Allows v.height v.round v.proposalId := by
  have hheights : Along (step X) HeightKept (.new identity keypair manager) (events ++ [e]) :=
    along_heightKept _ hprovider fun height _ => Nat.zero_le _
  obtain ⟨hpre, hlast, -⟩ := Along.append.mp (hheights.and hevents)
  have hinv := lockInvariant_run identity keypair manager hpre
  obtain ⟨tail, hlog, htail⟩ := (lockInvariant_step hlast.1 hlast.2 hinv).2
  intro v hv htype
  have hmem : .voteCast v ∈ tail := by
    unfold newVotes EngineState.castVotes at hv
    rw [hlog, List.filterMap_append, List.drop_left] at hv
    obtain ⟨eff, heff, heq⟩ := List.mem_filterMap.mp hv
    cases eff with
    | voteCast v' => cases heq; exact heff
    | _ => cases heq
  obtain ⟨hh, hr, hall⟩ := htail v hmem
  rw [hh, hr]
  exact hall htype

/-! ## A lock that is not kept -/

/-- The engine precommits proposal 7 in round 0 and times out into round 1. -/
def precommitThenTimeout : List Input :=
  [.start, .propose (proposalOf 2 0 7), .vote (voteOf 2 .preVote 0 7), .vote (voteOf 3 .preVote 0 7), .timer, .timer]

/-- In round 1 the engine prevotes proposal 8, for which it has seen no prevote. -/
theorem prevote_against_lock :
    ∃ v ∈ newVotes zeroScheme (runOfOne precommitThenTimeout) ⟨chainAt 0, .propose (proposalOf 3 1 8)⟩,
      v.voteType = .preVote ∧
        ¬ (step zeroScheme (runOfOne precommitThenTimeout) ⟨chainAt 0, .propose (proposalOf 3 1 8)⟩).Allows
          v.height v.round v.proposalId := by
  decide +kernel

theorem prevote_again_respects_lock :
    (∃ v ∈ newVotes zeroScheme (runOfOne precommitThenTimeout) ⟨chainAt 0, .propose (proposalOf 3 1 7)⟩,
      v.voteType = .preVote) ∧
    ∀ v ∈ newVotes zeroScheme (runOfOne precommitThenTimeout) ⟨chainAt 0, .propose (proposalOf 3 1 7)⟩,
      v.voteType = .preVote →
        (step zeroScheme (runOfOne precommitThenTimeout) ⟨chainAt 0, .propose (proposalOf 3 1 7)⟩).Allows
          v.height v.round v.proposalId :=
  ⟨by decide +kernel, prevote_respects_lock (some 1) (some 11) fourValidators (onEmptyChain precommitThenTimeout) _
    (by decide +kernel) (by decide +kernel)⟩

end SovereignNetwork.Engine
