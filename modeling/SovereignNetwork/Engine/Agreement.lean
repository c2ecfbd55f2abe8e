import Mathlib.Data.Fintype.Basic
import SovereignNetwork.Engine.Finality
import SovereignNetwork.Engine.Lemmas.Genuine
import SovereignNetwork.Lib.LockedVoting
import SovereignNetwork.Lib.Network

/-!
# Agreement

Honest engines and fewer than a third of Byzantine validators. An event delivers a message to one engine or lets its
timer run out; messages come in any order, any number of times or never, and Byzantine validators send what they like.
-/

namespace SovereignNetwork.Engine

open Lib Validators

variable {ι : Type} {X : Externals} {w w' : ι → EngineState} {k : VotePoolKey} {t : VoteType} {h r : Nat} {pid : Hash}

/-! ## The network -/

/-- The honest engines, indexed by `ι`, with the same validators active at the start. -/
structure Committee (ι : Type) where
  identity : ι → IdentityId
  keypair : ι → Option DilithiumPk
  manager : ι → ValidatorManager
  validators : Finset IdentityId
  byzantine : Finset IdentityId
  seats : ∀ i, Seats (manager i) validators (identity i)
  distinct : Function.Injective identity
  honest : ∀ id ∈ validators, id ∉ byzantine → ∃ i, identity i = id
  few : 3 * byzantine.card < validators.card

namespace Committee

variable (C : Committee ι)

def start (i : ι) : EngineState := .new (some (C.identity i)) (C.keypair i) (C.manager i)

/-- If the voter is an honest engine, it has cast the vote. -/
def CastIn (w : ι → EngineState) (k : VotePoolKey) (pid : Hash) : Prop :=
  ∀ i, C.identity i = k.validatorId → ∃ v ∈ (w i).castVotes, v.key = k ∧ v.proposalId = pid

/-- Unforgeable signatures: a vote that verifies under the key of an honest engine was cast by it. -/
def Unforged (X : Externals) (w : ι → EngineState) (l : ι × Event) : Prop :=
  Authentic X (C.manager l.1) (C.CastIn w) l.2

end Committee

/-- What the engine counts over several rounds: a quorum of commits is one of validators, and a quorum of precommits
contains one of a single round. -/
structure EngineState.SoundCounts (s : EngineState) : Prop where
  commits : ∀ h pid, hasSupermajority (s.countCommitsFor h pid) s.activeCount = true →
    hasSupermajority (s.voters .commit h (fun _ => true) pid).card s.activeCount = true
  precommits : ∀ h pid, hasSupermajority (s.countPrecommitsAnyRound h pid) s.activeCount = true →
    ∃ r, hasSupermajority (s.countPrecommitsFor h r pid) s.activeCount = true

/-- The conditions on an event for the engine that it reaches. -/
structure Admissible (X : Externals) (s : EngineState) (e : Event) : Prop where
  height : HeightKept s e
  round : RoundKept s e
  lock : LockKept X s e

theorem EngineState.soundCounts_of_round {s : EngineState} (hround : ∀ e ∈ s.votePool.entries, e.1.round = r) :
    s.SoundCounts where
  commits := by
    intro h pid hq
    have hholds : ∀ {id r'}, s.Holds .commit h r' id pid → r' = r := by
      rintro id r' ⟨vote, hl⟩
      exact hround _ (HashMap.mem_entries_iff.mpr hl)
    rw [card_voters_of_injOn fun id r₁ r₂ _ _ h₁ h₂ => (hholds h₁).trans (hholds h₂).symm]
    exact hq
  precommits := by
    intro h pid hq
    refine ⟨r, ?_⟩
    have hcount : s.countPrecommitsFor h r pid = s.countPrecommitsAnyRound h pid := by
      refine List.countP_congr fun e he => ?_
      simp [hround e he]
    rw [hcount]
    exact hq

/-! ## The rules of locked voting -/

theorem of_key_eq {v : ConsensusVote} (hk : v.key = k) :
    v.height = k.height ∧ v.round = k.round ∧ v.voteType = k.voteType := by
  subst hk
  exact ⟨rfl, rfl, rfl⟩

namespace Committee

variable {C : Committee ι}

def quorums (C : Committee ι) : QuorumSystem IdentityId where
  IsQuorum A := A ⊆ C.validators ∧ hasSupermajority A.card C.validators.card = true
  Correct id := id ∈ C.validators ∧ id ∉ C.byzantine
  inter := by
    rintro A B ⟨hA, hqA⟩ ⟨hB, hqB⟩
    obtain ⟨v, hvA, hvB, hv⟩ := MeetsRatio.exists_mem_inter (by decide) hA hB (hasSupermajority_iff.mp hqA)
      (hasSupermajority_iff.mp hqB) C.few
    exact ⟨v, ⟨hA hvA, hv⟩, hvA, hvB⟩

def HasCast (C : Committee ι) (w : ι → EngineState) (t : VoteType) (h : Nat) (id : IdentityId) (r : Nat)
    (pid : Hash) : Prop :=
  ∃ i, C.identity i = id ∧ ∃ v ∈ (w i).castVotes, v.key = ⟨h, r, t, id⟩ ∧ v.proposalId = pid

theorem hasCast_of_castIn {id : IdentityId} (hid : C.quorums.Correct id) (hcast : C.CastIn w ⟨h, r, t, id⟩ pid) :
    C.HasCast w t h id r pid := by
  obtain ⟨i, hi⟩ := C.honest id hid.1 hid.2
  exact ⟨i, hi, hcast i hi⟩

theorem backed_of_quorumIn (hq : QuorumIn C.validators (C.CastIn w) t h r pid) :
    C.quorums.Backed fun id => C.HasCast w t h id r pid := by
  obtain ⟨A, hsub, hquorum, hcast⟩ := hq
  exact ⟨A, ⟨hsub, hquorum⟩, fun id hid hcorrect => hasCast_of_castIn hcorrect (hcast id hid)⟩

/-- Every engine keeps the voting rules, with respect to the votes that all have cast. -/
def AllGenuine (X : Externals) (C : Committee ι) (w : ι → EngineState) : Prop :=
  ∀ i, (w i).Genuine X (C.manager i) C.validators (C.identity i) (C.CastIn w)

theorem AllGenuine.lockedVoting (hw : C.AllGenuine X w) (h : Nat) :
    LockedVoting C.quorums (C.HasCast w .preVote h) (C.HasCast w .preCommit h) where
  unique := by
    rintro id r p q - ⟨i, hi, v, hv, hkey, rfl⟩ ⟨j, hj, v', hv', hkey', rfl⟩
    obtain rfl : i = j := C.distinct (hi.trans hj.symm)
    obtain ⟨hh, hr, ht⟩ := of_key_eq (hkey.trans hkey'.symm)
    exact (hw i).consistent v hv v' hv' hh hr ht
  backed := by
    rintro id r p - ⟨i, -, v, hv, hkey, rfl⟩
    obtain ⟨hh, hr, ht⟩ : v.height = h ∧ v.round = r ∧ v.voteType = .preCommit := of_key_eq hkey
    subst hh hr
    exact backed_of_quorumIn ((hw i).disciplined.backed v hv ht)
  locked := by
    rintro id r r' p q - ⟨i, hi, a, ha, hkey, rfl⟩ ⟨j, hj, b, hb, hkey', rfl⟩ hlt
    obtain rfl : i = j := C.distinct (hi.trans hj.symm)
    obtain ⟨hah, har, hat⟩ : a.height = h ∧ a.round = r ∧ a.voteType = .preCommit := of_key_eq hkey
    obtain ⟨hbh, hbr, hbt⟩ : b.height = h ∧ b.round = r' ∧ b.voteType = .preVote := of_key_eq hkey'
    subst hah har hbr
    refine ((hw i).disciplined.locked a ha b hb hat hbt hbh.symm hlt).imp_right ?_
    rintro ⟨r, hr, hr', hq⟩
    exact ⟨r, hr, hr', backed_of_quorumIn (hbh ▸ hq)⟩

/-! ## From a callback to a quorum of precommits -/

theorem AllGenuine.precommitted_of_commit (hw : C.AllGenuine X w) (hreached : ∀ i, Reached X (C.manager i) (w i))
    (hcounts : ∀ i, (w i).SoundCounts) {id : IdentityId} (hcast : C.HasCast w .commit h id r pid) :
    ∃ r₁, C.quorums.Backed fun id => C.HasCast w .preCommit h id r₁ pid := by
  obtain ⟨i, -, v, hv, hkey, rfl⟩ := hcast
  obtain ⟨rfl, -, ht⟩ := of_key_eq hkey
  obtain ⟨r₁, hq⟩ := (hcounts i).precommits _ _ ((hreached i).commitsBacked v (EngineState.mem_castVotes.mp hv) ht)
  exact ⟨r₁, backed_of_quorumIn ((hw i).member.quorumIn (C.seats i) hq)⟩

theorem AllGenuine.precommitted_of_callback (hw : C.AllGenuine X w) (hreached : ∀ i, Reached X (C.manager i) (w i))
    (hcounts : ∀ i, (w i).SoundCounts) {i : ι} {call : CommitCallback} (hcall : call ∈ (w i).commitCallbacks) :
    ∃ r₁, C.quorums.Backed fun id => C.HasCast w .preCommit call.height id r₁ call.proposal.id := by
  have hquorum := (hcounts i).commits _ _ ((hreached i).callback_quorum (EngineState.mem_commitCallbacks.mp hcall))
  rw [(hw i).member.activeCount (C.seats i)] at hquorum
  have hvoters : C.quorums.IsQuorum ((w i).voters .commit call.height (fun _ => true) call.proposal.id) :=
    ⟨(hw i).member.voters_subset (C.seats i), hquorum⟩
  obtain ⟨id, hcorrect, hid, -⟩ := C.quorums.inter hvoters hvoters
  obtain ⟨r, -, vote, hl⟩ := EngineState.mem_voters.mp hid
  exact hw.precommitted_of_commit hreached hcounts (hasCast_of_castIn hcorrect ((hw i).member.pool _ _ _ hl))

theorem AllGenuine.agree (hw : C.AllGenuine X w) (hreached : ∀ i, Reached X (C.manager i) (w i))
    (hcounts : ∀ i, (w i).SoundCounts) {i j : ι} {call call' : CommitCallback}
    (hcall : call ∈ (w i).commitCallbacks) (hcall' : call' ∈ (w j).commitCallbacks)
    (hh : call.height = call'.height) : call.proposal.id = call'.proposal.id := by
  obtain ⟨r, hp⟩ := hw.precommitted_of_callback hreached hcounts hcall
  obtain ⟨r', hq⟩ := hw.precommitted_of_callback hreached hcounts hcall'
  rw [← hh] at hq
  exact (hw.lockedVoting call.height).agreement hp hq

/-! ## Runs of the network -/

theorem CastIn.mono (hsub : ∀ i, (w i).castVotes ⊆ (w' i).castVotes) (hcast : C.CastIn w k pid) :
    C.CastIn w' k pid := by
  intro i hi
  obtain ⟨v, hv, hkey, hp⟩ := hcast i hi
  exact ⟨v, hsub i hv, hkey, hp⟩

variable [DecidableEq ι]

theorem castVotes_subset_netStep (w : ι → EngineState) (l : ι × Event) (i : ι) :
    (w i).castVotes ⊆ (netStep (step X) w l i).castVotes := by
  unfold netStep
  by_cases hi : i = l.1
  · subst hi
    rw [Function.update_self]
    exact castVotes_subset_step X _ _
  · rw [Function.update_of_ne hi]
    exact List.Subset.refl _

theorem allGenuine_run (C : Committee ι) {events : List (ι × Event)}
    (hevents : Along (netStep (step X)) (fun w l => C.Unforged X w l ∧ Admissible X (w l.1) l.2) C.start events) :
    C.AllGenuine X (run (netStep (step X)) C.start events) := by
  intro i
  -- a vote that is cast at any time of the run is cast at its end
  have hlast := hevents.before_last (r := fun w w' => ∀ i, (w i).castVotes ⊆ (w' i).castVotes)
    (fun _ _ => List.Subset.refl _) (fun _ _ _ h h' i => List.Subset.trans (h i) (h' i)) castVotes_subset_netStep
  have hmember : Along (step X) (fun s e => HeightKept s e ∧ RoundKept s e ∧ LockKept X s e ∧
      Authentic X (C.manager i) (C.CastIn (run (netStep (step X)) C.start events)) e) (C.start i) (eventsOf i events) := by
    refine hlast.member i ?_
    rintro w e ⟨⟨hauth, hadm⟩, hsub⟩
    exact ⟨hadm.height, hadm.round, hadm.lock, fun v hin hkey hsig => (hauth v hin hkey hsig).mono hsub⟩
  have hrun : run (netStep (step X)) C.start events i = run (step X) (C.start i) (eventsOf i events) :=
    run_netStep C.start events i
  rw [hrun]
  refine genuine_run (C.keypair i) (C.seats i) hmember ?_
  intro v hv j hj
  obtain rfl : j = i := C.distinct (hj.trans (voter_of_run (C.keypair i) hv))
  exact ⟨v, by rw [hrun]; exact hv, rfl, rfl⟩

end Committee

/-- In every run in which signatures are not forged and every event is admissible, and for which the engines' counts
over several rounds are sound, no two honest engines hand different proposals of one height to the callback. -/
theorem engines_agree [DecidableEq ι] (X : Externals) (C : Committee ι) (events : List (ι × Event))
    (hevents : Along (netStep (step X)) (fun w l => C.Unforged X w l ∧ Admissible X (w l.1) l.2) C.start events)
    (hcounts : ∀ i, (run (netStep (step X)) C.start events i).SoundCounts) :
    ∀ i j, ∀ call ∈ (run (netStep (step X)) C.start events i).commitCallbacks,
      ∀ call' ∈ (run (netStep (step X)) C.start events j).commitCallbacks,
        call.height = call'.height → call.proposal.id = call'.proposal.id := by
  intro i j call hcall call' hcall'
  refine (C.allGenuine_run hevents).agree (fun i => ?_) hcounts hcall hcall'
  exact ⟨_, _, _, run_netStep _ _ i⟩

/-! ## Engines that disagree -/

instance {manager : ValidatorManager} {R : VotePoolKey → Hash → Prop} [∀ k pid, Decidable (R k pid)] {e : Event} :
    Decidable (Authentic X manager R e) :=
  decidable_of_iff (∀ v ∈ e.input.vote?,
      (manager.getValidator v.voter).map Validator.consensusKey = some v.signature.publicKey →
        X.verifySignature v.envelope v.signature = true → R v.key v.proposalId)
    (forall_congr' fun v => by rw [Option.mem_def, vote?_eq_some])

instance [Fintype ι] {C : Committee ι} : Decidable (C.CastIn w k pid) := Fintype.decidableForallFintype

instance [Fintype ι] {C : Committee ι} {l : ι × Event} : Decidable (C.Unforged X w l) :=
  inferInstanceAs (Decidable (Authentic _ _ _ _))

instance {s : EngineState} {e : Event} : Decidable (Admissible X s e) :=
  decidable_of_iff (HeightKept s e ∧ RoundKept s e ∧ LockKept X s e)
    ⟨fun ⟨hh, hr, hl⟩ => ⟨hh, hr, hl⟩, fun h => ⟨h.height, h.round, h.lock⟩⟩

def honestId : Fin 3 → Nat
  | 0 => 1
  | 1 => 3
  | 2 => 4

def threeHonest : Committee (Fin 3) where
  identity i := BitVec.ofNat _ (honestId i)
  keypair i := some (BitVec.ofNat _ (10 + honestId i))
  manager _ := fourValidators
  validators := {1, 2, 3, 4}
  byzantine := {2}
  seats i := ⟨by decide +kernel, by decide +kernel, by revert i; decide +kernel⟩
  distinct := by unfold Function.Injective; decide +kernel
  honest := by
    intro id hid hbyz
    simp only [Finset.mem_insert, Finset.mem_singleton] at hid hbyz
    rcases hid with rfl | rfl | rfl | rfl
    · exact ⟨0, rfl⟩
    · exact absurd rfl hbyz
    · exact ⟨1, rfl⟩
    · exact ⟨2, rfl⟩
  few := by decide +kernel

/-- Proposal 7 and three commits for it go to the first engine, proposal 8 and three commits to the second. All
messages are of validator 2. -/
def splitCommits : List (Fin 3 × Event) :=
  [(0, 7), (1, 8)].flatMap fun (i, pid) =>
    (onEmptyChain [.start, .propose (proposalOf 2 0 pid), .vote (voteOf 2 .commit 0 pid), .vote (voteOf 2 .commit 1 pid),
      .vote (voteOf 2 .commit 2 pid)]).map fun e => (i, e)

theorem engines_disagree :
    Along (netStep (step zeroScheme)) (fun w l => threeHonest.Unforged zeroScheme w l) threeHonest.start splitCommits ∧
      ∃ call ∈ (run (netStep (step zeroScheme)) threeHonest.start splitCommits 0).commitCallbacks,
        ∃ call' ∈ (run (netStep (step zeroScheme)) threeHonest.start splitCommits 1).commitCallbacks,
          call.height = call'.height ∧ call.proposal.id ≠ call'.proposal.id := by
  constructor <;> decide +kernel

/-- The validators 1, 2 and 3 vote for proposal 7 in round 0, and the first two engines receive the votes. -/
def commitTogether : List (Fin 3 × Event) :=
  let toFirst := fun input : Input => ((0 : Fin 3), (⟨chainAt 0, input⟩ : Event))
  let toSecond := fun input : Input => ((1 : Fin 3), (⟨chainAt 0, input⟩ : Event))
  [toFirst .start, toSecond .start, toFirst (.propose (proposalOf 2 0 7)), toSecond (.propose (proposalOf 2 0 7))] ++
    [VoteType.preVote, .preCommit, .commit].flatMap fun t =>
      [toFirst (.vote (voteOf 2 t 0 7)), toFirst (.vote (voteOf 3 t 0 7)),
        toSecond (.vote (voteOf 2 t 0 7)), toSecond (.vote (voteOf 1 t 0 7))]

theorem engines_agree_on_seven :
    (∃ call ∈ (run (netStep (step zeroScheme)) threeHonest.start commitTogether 0).commitCallbacks, call.height = 1) ∧
      (∃ call ∈ (run (netStep (step zeroScheme)) threeHonest.start commitTogether 1).commitCallbacks, call.height = 1) ∧
      ∀ i j, ∀ call ∈ (run (netStep (step zeroScheme)) threeHonest.start commitTogether i).commitCallbacks,
        ∀ call' ∈ (run (netStep (step zeroScheme)) threeHonest.start commitTogether j).commitCallbacks,
          call.height = call'.height → call.proposal.id = call'.proposal.id := by
  refine ⟨by decide +kernel, by decide +kernel, engines_agree zeroScheme threeHonest commitTogether (by decide +kernel) ?_⟩
  intro i
  refine EngineState.soundCounts_of_round (r := 0) ?_
  revert i
  decide +kernel

end SovereignNetwork.Engine
