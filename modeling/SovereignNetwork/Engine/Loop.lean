import SovereignNetwork.Engine.StateMachine

/-!
# The consensus loop

The events that `run_consensus_loop` of `network.rs` feeds to the engine. The timer token is made anew
after every event, so a timeout can come at any time; it is handled in BFT mode only.
-/

namespace SovereignNetwork.Engine

open Lib Validators

structure ValidatorEntry where
  identityId : IdentityId
  stake : Nat
  consensusKey : DilithiumPk

structure ValidatorSetUpdate where
  entries : List ValidatorEntry
  localIdentity : Option IdentityId
  localKeypair : Option DilithiumPk

inductive Input
  | start
  | propose (proposal : ConsensusProposal)
  | vote (vote : ConsensusVote)
  | timer
  | modeTransitionToBft
  | newBlock
  | validatorUpdate (update : ValidatorSetUpdate)

def Input.isTimer : Input → Bool
  | .timer => true
  | _ => false

theorem isTimer_iff {input : Input} : input.isTimer = true ↔ input = .timer := by
  cases input <;> simp [Input.isTimer]

def Input.vote? : Input → Option ConsensusVote
  | .vote v => some v
  | _ => none

theorem vote?_eq_some {input : Input} {v : ConsensusVote} : input.vote? = some v ↔ input = .vote v := by
  cases input <;> simp [Input.vote?]

structure Event where
  env : Env
  input : Input

namespace EngineState

/-- The engine of `ConsensusEngine::new`, with the validators registered before the loop starts. -/
def new (identity : Option IdentityId) (keypair : Option DilithiumPk) (manager : ValidatorManager) : EngineState where
  validatorIdentity := identity
  validatorKeypair := keypair
  validatorManager := manager
  height := 0
  round := 0
  step := .propose
  proposer := none
  proposals := []
  lockedProposal := none
  validProposal := none
  pendingProposals := []
  votePool := ∅
  validatorSetHistory := []
  firstVotes := ∅
  log := []

variable (X : Externals) (env : Env)

def onMessageVote (vote : ConsensusVote) (s : EngineState) : Outcome :=
  match vote.voteType with
  | .preVote => onPrevote X env vote s
  | .preCommit => onPrecommit X env vote s
  | .commit => onCommitVote X env vote s
  | .against => (.ok (), s)

def setLocalValidatorIdentity (identity : IdentityId) (s : EngineState) : EngineState :=
  match s.validatorIdentity, s.validatorManager.getValidator identity with
  | some _, _ => s
  | none, none => s
  | none, some validator =>
    match s.validatorKeypair with
    | none => { s with validatorIdentity := some identity }
    | some key => if key ≠ validator.consensusKey then s else { s with validatorIdentity := some identity }

def setValidatorKeypair (keypair : DilithiumPk) (s : EngineState) : EngineState :=
  match s.validatorIdentity with
  | none => s
  | some identity =>
    match s.validatorManager.getValidator identity with
    | none => s
    | some validator =>
      if validator.consensusKey ≠ keypair then s else { s with validatorKeypair := some keypair }

/-- Registration of the entries of an update, with empty networking and rewards keys as the loop passes them. -/
def registerEntries (entries : List ValidatorEntry) (m : ValidatorManager) : ValidatorManager :=
  entries.foldl (fun m entry =>
    if m.isValidator entry.identityId then
      m
    else
      (m.registerValidator X.votingPower env.now entry.identityId entry.stake 0 entry.consensusKey [] [] 0).2) m

def onValidatorUpdate (update : ValidatorSetUpdate) (s : EngineState) : EngineState :=
  let s := { s with validatorManager := registerEntries X env update.entries s.validatorManager }
  let s := update.localIdentity.elim s fun identity => s.setLocalValidatorIdentity identity
  let s := update.localKeypair.elim s fun keypair => s.setValidatorKeypair keypair
  s.snapshotValidatorSet s.height

/-- The entry of `run_consensus_loop`. -/
def start (s : EngineState) : Outcome :=
  (s.syncHeightWithBlockchain env).andThen fun s =>
    let s := s.snapshotValidatorSet s.height
    (.ok (), if s.isBftModeActive then enterProposeStep X env s else s)

/-- A height synchronisation whose failure is only warned about. -/
def resync (s : EngineState) : EngineState :=
  let s := (s.syncHeightWithBlockchain env).2
  s.snapshotValidatorSet s.height

end EngineState

/-- What the loop does with an event. A mode transition is followed by a timeout in the source; here that is
the next event. -/
def handle (X : Externals) (e : Event) (s : EngineState) : Outcome :=
  match e.input with
  | .start => s.start X e.env
  | .propose p => s.onProposal X e.env p
  | .vote vote => s.onMessageVote X e.env vote
  | .timer => if s.isBftModeActive then s.onRoundTimeout X e.env else (.ok (), s)
  | .modeTransitionToBft =>
    (.ok (), if s.isBftModeActive then (s.resync e.env).enterProposeStep X e.env else s)
  | .newBlock => (.ok (), s.resync e.env)
  | .validatorUpdate update => (.ok (), s.onValidatorUpdate X e.env update)

def step (X : Externals) (s : EngineState) (e : Event) : EngineState := (handle X e s).2

end SovereignNetwork.Engine
