import SovereignNetwork.Engine.Equivocation
import SovereignNetwork.Engine.Locking

/-!
# One engine among genuine votes

`R` are the votes that may be in circulation: for an honest validator those it has cast, for any other validator
all votes. If an engine receives votes of `R` only, its precommits are backed by prevotes of `R`, and its prevotes
leave a precommitted proposal only for one that such prevotes back.
-/

namespace SovereignNetwork.Engine

open Lib Validators Relation

variable {X : Externals} {s s' : EngineState} {e : Event} {manager : ValidatorManager} {V : Finset IdentityId}
  {id : IdentityId} {R : VotePoolKey → Hash → Prop} {t : VoteType} {h r : Nat} {pid : Hash}

/-- A received vote with a valid signature under the registered key of its voter is one of `R`. -/
def Authentic (X : Externals) (manager : ValidatorManager) (R : VotePoolKey → Hash → Prop) (e : Event) : Prop :=
  ∀ v, e.input = .vote v → (manager.getValidator v.voter).map Validator.consensusKey = some v.signature.publicKey →
    X.verifySignature v.envelope v.signature = true → R v.key v.proposalId

/-- Votes of `R` of a supermajority of the validators `V`. -/
def QuorumIn (V : Finset IdentityId) (R : VotePoolKey → Hash → Prop) (t : VoteType) (h r : Nat) (pid : Hash) : Prop :=
  ∃ validators ⊆ V, hasSupermajority validators.card V.card = true ∧ ∀ id ∈ validators, R ⟨h, r, t, id⟩ pid

/-- The engine takes part with the identity `id`, and its pool holds votes of `R`. -/
structure EngineState.Member (X : Externals) (manager : ValidatorManager) (id : IdentityId)
    (R : VotePoolKey → Hash → Prop) (s : EngineState) : Prop where
  isSealed : s.Sealed manager
  valid : s.PoolValid X
  identity : s.validatorIdentity = some id
  pool : ∀ k vote pid, s.votePool.lookup k = some (vote, pid) → R k pid

/-- The validators `V`, with `id` among them, are the active ones of the registry. -/
structure Seats (manager : ValidatorManager) (V : Finset IdentityId) (id : IdentityId) : Prop where
  nodup : (EngineState.new none none manager).activeIds.Nodup
  active : (EngineState.new none none manager).activeIds.toFinset = V
  mem : id ∈ V

theorem EngineState.Sealed.activeIds_eq (hs : s.Sealed manager) :
    s.activeIds = (EngineState.new none none manager).activeIds :=
  activeIds_eq_of_registryOf hs.registry

theorem EngineState.Member.activeCount (hs : s.Member X manager id R) (hseats : Seats manager V id) :
    s.activeCount = V.card := by
  rw [activeCount_eq_length, hs.isSealed.activeIds_eq, ← hseats.active, List.toFinset_card_of_nodup hseats.nodup]

theorem EngineState.Member.voters_subset {inRound : Nat → Bool} (hs : s.Member X manager id R)
    (hseats : Seats manager V id) : s.voters t h inRound pid ⊆ V := by
  intro voter hvoter
  obtain ⟨r, -, vote, hl⟩ := mem_voters.mp hvoter
  rcases (hs.valid _ _ _ hl).origin with ⟨hmem, -⟩ | ⟨hown, -⟩
  · rw [← hseats.active, List.mem_toFinset, ← hs.isSealed.activeIds_eq]
    exact hmem
  · obtain rfl : id = voter := Option.some.inj (hs.identity.symm.trans hown)
    exact hseats.mem

theorem EngineState.Member.quorumIn (hs : s.Member X manager id R) (hseats : Seats manager V id)
    (hq : hasSupermajority (s.countVotes t h (· == r) pid) s.activeCount = true) : QuorumIn V R t h r pid := by
  refine ⟨s.voters t h (· == r) pid, hs.voters_subset hseats, ?_, ?_⟩
  · rw [card_voters_of_round, ← hs.activeCount hseats]
    exact hq
  · intro voter hvoter
    obtain ⟨vote, hl⟩ := mem_voters_of_round.mp hvoter
    exact hs.pool _ _ _ hl

theorem EngineState.Member.move (hc : Carried s s') (hs : s.Member X manager id R) : s'.Member X manager id R where
  isSealed := hs.isSealed.move hc
  valid := fun k vote pid hl => (hs.valid k vote pid (hc.pool ▸ hl)).mono hc.registry hc.identity
  identity := by
    rcases hc.identity with hnone | heq
    · rw [hs.identity] at hnone; cases hnone
    · exact heq.trans hs.identity
  pool := fun k vote pid hl => hs.pool k vote pid (hc.pool ▸ hl)

theorem EngineState.Member.transition {A : Origin → EngineState → ConsensusProposal → Prop}
    (ht : Transition X A (fun v => e.input = .vote v) s s') (hauth : Authentic X manager R e)
    (hown : ∀ v ∈ s'.castVotes, R v.key v.proposalId) (hs : s.Member X manager id R) :
    s'.Member X manager id R where
  isSealed := hs.isSealed.transition ht
  valid := hs.valid.transition hs.isSealed ht
  identity := by
    rcases ht.identity with hnone | heq
    · rw [hs.identity] at hnone; cases hnone
    · exact heq.trans hs.identity
  pool := by
    intro k vote pid hl
    rcases ht.pool_cases hl with hl | ⟨rfl, rfl, ⟨-, hlog⟩ | ⟨hinput, hsig, -⟩⟩
    · exact hs.pool k vote pid hl
    · exact hown vote (EngineState.mem_castVotes.mpr hlog)
    · obtain ⟨hkey, hverify⟩ := verifyVoteSignature_ok hsig
      refine hauth vote hinput ?_ hverify
      have hkeys : EngineState.keyOf (.new none none manager) vote.voter = s.keyOf vote.voter :=
        keyOf_eq_of_registryOf hs.isSealed.registry.symm _
      exact hkeys.trans hkey

theorem voter_of_run (keypair : Option DilithiumPk) {events : List Event} {v : ConsensusVote}
    (hv : v ∈ (run (step X) (.new (some id) keypair manager) events).castVotes) : v.voter = id := by
  refine (run_invariant (X := X)
    (I := fun s => s.validatorIdentity = some id ∧ ∀ v, .voteCast v ∈ s.log → v.voter = id) ?_ ?_
    ⟨rfl, fun v hv => absurd hv List.not_mem_nil⟩ events).2 v (EngineState.mem_castVotes.mp hv)
  · rintro s s' hc ⟨hid, hs⟩
    refine ⟨?_, hc.log ▸ hs⟩
    rcases hc.identity with hnone | heq
    · rw [hid] at hnone; cases hnone
    · exact heq.trans hid
  · rintro B s s' ht ⟨hid, hs⟩
    constructor
    · rcases ht.identity with hnone | heq
      · rw [hid] at hnone; cases hnone
      · exact heq.trans hid
    · intro v hv
      rcases ht.log_cases hv with hv | hnew
      · exact hs v hv
      · cases hnew with
        | vote hcast => exact Option.some.inj (hcast.own.identity.symm.trans hid)

/-! ## The voting rules -/

theorem Transition.castVotes_subset {A : Origin → EngineState → ConsensusProposal → Prop} {B : ConsensusVote → Prop}
    (ht : Transition X A B s s') : s.castVotes ⊆ s'.castVotes := by
  intro v hv
  rw [EngineState.mem_castVotes] at hv ⊢
  rcases ht.log_eq with heq | ⟨eff, -, heq⟩ <;> rw [heq]
  · exact hv
  · exact List.mem_append_left _ hv

theorem castVotes_subset_step (X : Externals) (s : EngineState) (e : Event) :
    s.castVotes ⊆ (step X s e).castVotes := by
  refine step_invariant (A := fun _ _ _ => True) (I := fun s' => s.castVotes ⊆ s'.castVotes) (fun _ _ _ => trivial)
    (fun _ => ?_) (fun _ _ ht hs => List.Subset.trans hs ht.castVotes_subset) (List.Subset.refl _)
  rw [EngineState.castVotes, EngineState.castVotes, (relocation e s).carried.log]
  exact List.Subset.refl _

/-- What agreement needs of the votes of an engine. -/
structure EngineState.Disciplined (V : Finset IdentityId) (R : VotePoolKey → Hash → Prop) (s : EngineState) : Prop where
  backed : ∀ a ∈ s.castVotes, a.voteType = .preCommit → QuorumIn V R .preVote a.height a.round a.proposalId
  locked : ∀ a ∈ s.castVotes, ∀ b ∈ s.castVotes, a.voteType = .preCommit → b.voteType = .preVote →
    a.height = b.height → a.round < b.round → a.proposalId = b.proposalId ∨
      ∃ r, a.round < r ∧ r < b.round ∧ QuorumIn V R .preVote b.height r b.proposalId

theorem EngineState.Disciplined.of_log (hlog : s'.log = s.log) (hs : s.Disciplined V R) : s'.Disciplined V R := by
  have hcast : s'.castVotes = s.castVotes := by rw [EngineState.castVotes, EngineState.castVotes, hlog]
  exact ⟨hcast ▸ hs.backed, hcast ▸ hs.locked⟩

theorem EngineState.Member.locked (hs : s.Member X manager id R) (hseats : Seats manager V id)
    (hallows : s.Allows h r pid) {a : ConsensusVote} (ha : a ∈ s.castVotes) (ht : a.voteType = .preCommit)
    (hh : a.height = h) (hr : a.round < r) :
    a.proposalId = pid ∨ ∃ r₁, a.round < r₁ ∧ r₁ < r ∧ QuorumIn V R .preVote h r₁ pid := by
  by_cases heq : a.proposalId = pid
  · exact .inl heq
  · obtain ⟨r₁, hlt, hlt', hq⟩ := hallows a ha ht hh hr heq
    exact .inr ⟨r₁, hlt, hlt', hs.quorumIn hseats hq⟩

theorem EngineState.Disciplined.transition {B : ConsensusVote → Prop} (ht : Transition X AllowedOnEntry B s s')
    (hseats : Seats manager V id) (hmember : s.Member X manager id R) (hknown : s.VotesKnown)
    (hallowed : s.ProposalsAllowed) (hs : s.Disciplined V R) : s'.Disciplined V R := by
  rcases ht.log_eq with heq | ⟨eff, hnew, heq⟩
  · exact hs.of_log heq
  have hold : ∀ {v}, v ∈ s'.castVotes → v ∈ s.castVotes ∨ Casts X s v := by
    intro v hv
    rcases ht.log_cases (EngineState.mem_castVotes.mp hv) with hv | hnew
    · exact .inl (EngineState.mem_castVotes.mpr hv)
    · cases hnew with
      | vote hcast => exact .inr hcast
  constructor
  · intro a ha hta
    rcases hold ha with ha | hcast
    · exact hs.backed a ha hta
    · cases hcast with
      | prevote own => rw [own.voteType] at hta; cases hta
      | precommit own hkey hquorum =>
        rw [own.height, own.round, own.proposalId]
        exact hmember.quorumIn hseats hquorum
      | commit own => rw [own.voteType] at hta; cases hta
  · intro a ha b hb hta htb hh hr
    have hplace : b.height = s.height → s.round < b.round → b ∉ s.castVotes := by
      intro hbh hbr hb
      have hle := hknown.place b (EngineState.mem_castVotes.mp hb)
      unfold EngineState.AtOrAfter at hle
      omega
    rcases hold hb with hb | hcast
    · rcases hold ha with ha | hcast
      · exact hs.locked a ha b hb hta htb hh hr
      · -- the engine has not prevoted in a later round than the current one
        exact absurd hb (hplace (hh.symm.trans hcast.own.height) (hcast.own.round ▸ hr))
    · rcases hold ha with ha | hcast'
      · cases hcast with
        | prevote own hpid hstep =>
          have hle : s.step ≤ .preVote := by
            rcases hstep with hstep | ⟨hstep, -⟩ <;> rw [hstep] <;> decide
          rw [own.height] at hh
          rw [own.round] at hr
          rw [own.height, own.round, own.proposalId]
          exact hmember.locked hseats (hallowed hle _ hpid) ha hta hh hr
        | precommit own => rw [own.voteType] at htb; cases htb
        | commit own => rw [own.voteType] at htb; cases htb
      · rw [hcast.own.round, hcast'.own.round] at hr
        exact absurd hr (Nat.lt_irrefl _)

/-! ## Runs -/

structure EngineState.Genuine (X : Externals) (manager : ValidatorManager) (V : Finset IdentityId) (id : IdentityId)
    (R : VotePoolKey → Hash → Prop) (s : EngineState) : Prop where
  member : s.Member X manager id R
  known : s.VotesKnown
  consistent : s.VotesConsistent
  allowed : s.ProposalsAllowed
  disciplined : s.Disciplined V R

theorem EngineState.VotesKnown.heightsKnown (hs : s.VotesKnown) : s.HeightsKnown := by
  intro v hv
  have hle := hs.place v (EngineState.mem_castVotes.mp hv)
  unfold EngineState.AtOrAfter at hle
  omega

theorem EngineState.Genuine.move (hheight : HeightKept s e) (hround : RoundKept s e) (h : Relocation e s s')
    (hs : s.Genuine X manager V id R) : s'.Genuine X manager V id R where
  member := hs.member.move h.carried
  known := hs.known.move hheight hround h
  consistent := by
    intro v hv v' hv'
    rw [EngineState.mem_castVotes, h.carried.log, ← EngineState.mem_castVotes] at hv hv'
    exact hs.consistent v hv v' hv'
  allowed := hs.allowed.move hheight hs.known.heightsKnown h
  disciplined := hs.disciplined.of_log h.carried.log

theorem genuine_step (hseats : Seats manager V id) (hheight : HeightKept s e) (hround : RoundKept s e)
    (hlock : LockKept X s e) (hauth : Authentic X manager R e)
    (hs : (∀ v ∈ s.castVotes, R v.key v.proposalId) → s.Genuine X manager V id R)
    (hown : ∀ v ∈ (step X s e).castVotes, R v.key v.proposalId) : (step X s e).Genuine X manager V id R := by
  have hmove := relocation e s
  refine step_invariant (A := AllowedOnEntry)
    (I := fun s => (∀ v ∈ s.castVotes, R v.key v.proposalId) → s.Genuine X manager V id R) ?_ ?_ ?_ hs hown
  · intro o p hadd hstep
    exact hmove.carried.allows (hlock o p hadd hstep)
  · intro hs hown
    refine (hs fun v hv => hown v ?_).move hheight hround hmove
    rw [EngineState.mem_castVotes, hmove.carried.log, ← EngineState.mem_castVotes]
    exact hv
  · intro s s' ht hs hown
    have hs := hs fun v hv => hown v (ht.castVotes_subset hv)
    exact ⟨hs.member.transition ht hauth hown, hs.known.transition ht, hs.consistent.transition hs.known ht,
      hs.allowed.transition ht, hs.disciplined.transition ht hseats hs.member hs.known hs.allowed⟩

theorem genuine_run (keypair : Option DilithiumPk) (hseats : Seats manager V id) {events : List Event}
    (hevents : Along (step X) (fun s e => HeightKept s e ∧ RoundKept s e ∧ LockKept X s e ∧ Authentic X manager R e)
      (.new (some id) keypair manager) events)
    (hown : ∀ v ∈ (run (step X) (.new (some id) keypair manager) events).castVotes, R v.key v.proposalId) :
    (run (step X) (.new (some id) keypair manager) events).Genuine X manager V id R := by
  refine hevents.invariant (I := fun s => (∀ v ∈ s.castVotes, R v.key v.proposalId) → s.Genuine X manager V id R)
    (fun s e h hs hown => genuine_step hseats h.1 h.2.1 h.2.2.1 h.2.2.2 hs hown) (fun _ => ?_) hown
  have hhonest := honest_new (some id) keypair manager
  refine ⟨⟨sealed_new _ _, ?_, rfl, ?_⟩, hhonest.votesKnown, hhonest.votes, ?_, ?_, ?_⟩
  · intro k vote pid hl
    simp [EngineState.new] at hl
  · intro k vote pid hl
    simp [EngineState.new] at hl
  · intro _ pid hpid
    cases hpid
  · intro a ha
    cases ha
  · intro a ha
    cases ha

end SovereignNetwork.Engine
