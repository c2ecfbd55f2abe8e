import Mathlib.Logic.Relation
import SovereignNetwork.Engine.Loop
import SovereignNetwork.Engine.Pool

/-!
# Events as sequences of atomic transitions

An event first moves the engine to the height and round it is handled in. What follows is a sequence of transitions at
that place, each with the guards under which the code makes it.
-/

namespace SovereignNetwork.Engine

open Lib Validators

/-! ## The place of an event -/

/-- The state in which an event is handled, after a change of height or round. -/
def relocate (e : Event) (s : EngineState) : EngineState :=
  match e.input with
  | .start =>
    ((s.syncHeightWithBlockchain e.env).andThen fun s => (.ok (), s.snapshotValidatorSet s.height)).2
  | .propose p =>
    match s.validateNoForkProposal p.height p.round p.id with
    | .ok () => if s.isProposalRelevant p then s.syncRound p.round else s
    | .error _ => s
  | .timer => if s.isBftModeActive ∧ s.step = .commit then s.roundAfterCommitTimeout e.env else s
  | .modeTransitionToBft => if s.isBftModeActive then s.resync e.env else s
  | .newBlock => s.resync e.env
  | .vote _ => s
  | .validatorUpdate _ => s

/-- The event makes the engine enter the propose step. -/
def proposing (e : Event) (s : EngineState) : Bool :=
  match e.input with
  | .start => (s.syncHeightWithBlockchain e.env).1.isOk && (relocate e s).isBftModeActive
  | .timer => s.isBftModeActive && s.step == .commit
  | .modeTransitionToBft => s.isBftModeActive
  | _ => false

inductive Origin
  | received
  | created
  deriving DecidableEq

/-- The event adds a proposal to the proposals of the round: a received one that passes the admission gate,
or one of its own. -/
inductive Adds (X : Externals) (e : Event) (s : EngineState) : Origin → ConsensusProposal → Prop
  | received {p : ConsensusProposal} (hinput : e.input = .propose p)
      (hfork : s.validateNoForkProposal p.height p.round p.id = .ok ()) (hrelevant : s.isProposalRelevant p = true)
      (hempty : (s.syncRound p.round).proposals = [])
      (hvalid : (s.syncRound p.round).validateIncomingProposal X e.env p = .ok ()) : Adds X e s .received p
  | created {p : ConsensusProposal} (hpropose : proposing e s = true)
      (hlocal : (relocate e s).computeProposerForRound (relocate e s).height (relocate e s).round =
        (relocate e s).validatorIdentity)
      (hcreate : (relocate e s).createProposal X e.env = .ok p) : Adds X e s .created p

def added (X : Externals) (e : Event) (s : EngineState) : Option (Origin × ConsensusProposal) :=
  match e.input with
  | .propose p =>
    if (s.validateNoForkProposal p.height p.round p.id).isOk ∧ s.isProposalRelevant p = true ∧
        (s.syncRound p.round).proposals = [] ∧ ((s.syncRound p.round).validateIncomingProposal X e.env p).isOk then
      some (.received, p)
    else
      none
  | _ =>
    let s' := relocate e s
    if proposing e s = true ∧ s'.computeProposerForRound s'.height s'.round = s'.validatorIdentity then
      match s'.createProposal X e.env with
      | .ok p => some (.created, p)
      | .error _ => none
    else
      none

theorem isOk_iff {ε : Type} {r : Except ε Unit} : r.isOk = true ↔ r = .ok () := by
  cases r with
  | error err => simp [Except.isOk, Except.toBool]
  | ok u => simp [Except.isOk, Except.toBool]

theorem adds_iff {X : Externals} {e : Event} {s : EngineState} {o : Origin} {p : ConsensusProposal} :
    Adds X e s o p ↔ added X e s = some (o, p) := by
  constructor
  · intro h
    cases h with
    | received hinput hfork hrelevant hempty hvalid => simp [added, hinput, hfork, hrelevant, hempty, hvalid, isOk_iff]
    | created hpropose hlocal hcreate =>
      unfold added
      split
      · rename_i q hinput
        simp [proposing, hinput] at hpropose
      · simp [hpropose, hlocal, hcreate]
  · intro h
    unfold added at h
    split at h
    · rename_i q hinput
      split at h
      · rename_i hguard
        cases h
        exact .received hinput (isOk_iff.mp hguard.1) hguard.2.1 hguard.2.2.1 (isOk_iff.mp hguard.2.2.2)
      · cases h
    · dsimp only at h
      split at h
      · rename_i hguard
        split at h
        · rename_i q hcreate
          cases h
          exact .created hguard.1 hguard.2 hcreate
        · cases h
      · cases h

instance {X : Externals} {e : Event} {s : EngineState} {P : Origin → ConsensusProposal → Prop}
    [∀ o p, Decidable (P o p)] : Decidable (∀ o p, Adds X e s o p → P o p) :=
  decidable_of_iff (∀ a ∈ added X e s, P a.1 a.2) (by simp [adds_iff])

/-! ## Transitions -/

/-- What the engine relies on in the registry: who is registered, with which key, and who takes part. -/
def registryOf (m : ValidatorManager) : List (IdentityId × IdentityId × DilithiumPk × Bool) :=
  m.validators.entries.map fun e => (e.1, e.2.identity, e.2.consensusKey, e.2.canParticipate)

/-- What a change of place leaves as it is. -/
structure Carried (s s' : EngineState) : Prop where
  registry : registryOf s'.validatorManager = registryOf s.validatorManager
  identity : s.validatorIdentity = none ∨ s'.validatorIdentity = s.validatorIdentity
  pending : s'.pendingProposals = s.pendingProposals
  pool : s'.votePool = s.votePool
  log : s'.log = s.log
  history : ∀ snapshot ∈ s'.validatorSetHistory,
    snapshot ∈ s.validatorSetHistory ∨ snapshot.validators = s.activeIds

/-- Nothing changes that voting depends on. -/
structure Quiet (s s' : EngineState) : Prop extends Carried s s' where
  height : s'.height = s.height
  round : s'.round = s.round
  step : s'.step = s.step
  proposals : s'.proposals = s.proposals

variable (X : Externals) (A : Origin → EngineState → ConsensusProposal → Prop) (B : ConsensusVote → Prop)

/-- One transition at a fixed height and round. `A` is what is known of added proposals, `B` of received votes. -/
inductive Transition : EngineState → EngineState → Prop
  | quiet {s s' : EngineState} (h : Quiet s s') : Transition s s'
  | raise {s : EngineState} (st : ConsensusStep) (hle : s.step ≤ st) (hst : st ≤ .commit) :
      Transition s { s with step := st }
  | prevote {s : EngineState} {env : Env} {vote : ConsensusVote} {pid : Hash} (hstep : s.step = .propose)
      (hpid : pid ∈ s.proposals) (hvote : s.ownVote X pid .preVote = .ok vote) :
      Transition s ({ s with step := .preVote }.recordOwnVote env vote)
  | latePrevote {s : EngineState} {env : Env} {vote : ConsensusVote} {pid : Hash} (hstep : s.step = .preVote)
      (hfresh : s.alreadyVoted .preVote true = false) (hpid : pid ∈ s.proposals)
      (hvote : s.ownVote X pid .preVote = .ok vote) : Transition s (s.recordOwnVote env vote)
  | precommit {s : EngineState} {env : Env} {vote : ConsensusVote} {pid : Hash} (hstep : s.step = .preCommit)
      (hfresh : s.alreadyVoted .preCommit false = false)
      (hquorum : hasSupermajority (s.countPrevotesFor s.height s.round pid) s.activeCount = true)
      (hvote : s.ownVote X pid .preCommit = .ok vote) : Transition s (s.recordOwnVote env vote)
  | commit {s : EngineState} {env : Env} {vote : ConsensusVote} {pid : Hash} (hstep : .commit ≤ s.step)
      (hfresh : s.alreadyVoted .commit false = false)
      (hquorum : hasSupermajority (s.countPrecommitsAnyRound s.height pid) s.activeCount = true)
      (hvote : s.ownVote X pid .commit = .ok vote) : Transition s (s.recordOwnVote env vote)
  | store {s : EngineState} {vote : ConsensusVote} (hheight : vote.height = s.height)
      (hsig : s.verifyVoteSignature X vote = true) (hmember : s.isValidatorMember vote.voter vote.height = true)
      (hkey : s.votePool.lookup vote.key = none) (hreceived : B vote) :
      Transition s { s with votePool := s.votePool.insert vote.key (vote, vote.proposalId) }
  | receive {s : EngineState} {p : ConsensusProposal} (hstep : s.step < .commit) (hempty : s.proposals = [])
      (hadd : A .received s p) : Transition s (s.addProposal p)
  | create {s : EngineState} {env : Env} {p : ConsensusProposal} (hcreate : s.createProposal X env = .ok p)
      (hadd : A .created s p) :
      Transition s { s.addProposal p with log := s.log ++ [.proposalCreated p] }
  | discard {s : EngineState} (pid : Hash) :
      Transition s { s with pendingProposals := s.pendingProposals.eraseP fun p => p.id == pid }
  | callback {s : EngineState} {pid : Hash} {p : ConsensusProposal} (succeeded : Bool) (hstep : .commit ≤ s.step)
      (hquorum : hasSupermajority (s.countCommitsFor s.height pid) s.activeCount = true)
      (hfind : s.pendingProposals.find? (fun p => p.id == pid) = some p) :
      Transition s { s with
        pendingProposals := s.pendingProposals.eraseP fun p => p.id == pid
        log := s.log ++ [.commitCallback ⟨s.height, p, s.quorumProof pid, succeeded⟩] }

abbrev Trace : EngineState → EngineState → Prop := Relation.ReflTransGen (Transition X A B)

end SovereignNetwork.Engine
