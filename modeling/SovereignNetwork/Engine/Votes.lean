import SovereignNetwork.Engine.Types

/-!
# Validator sets, vote counting and casting

`storage.rs`, the snapshot functions of `mod.rs`, and `cast_vote`.
-/

namespace SovereignNetwork.Engine

open Lib Validators

namespace EngineState

/-! ## Validator sets -/

def activeCount (s : EngineState) : Nat := s.validatorManager.getActiveValidators.length

def isBftModeActive (s : EngineState) : Bool := decide (s.activeCount ≥ minBftValidators)

def activeIds (s : EngineState) : List IdentityId := s.validatorManager.getActiveValidators.map Validator.identity

/-- The snapshot of a height is written once; the oldest of more than a hundred goes. -/
def snapshotValidatorSet (height : Nat) (s : EngineState) : EngineState :=
  if s.validatorSetHistory.any fun snapshot => snapshot.height = height then
    s
  else
    let history := s.validatorSetHistory ++ [⟨height, s.activeIds⟩]
    { s with validatorSetHistory := if history.length > 100 then history.tail else history }

def validatorSetForHeight (s : EngineState) (height : Nat) : Option (List IdentityId) :=
  (s.validatorSetHistory.find? fun snapshot => snapshot.height = height).map ValidatorSetSnapshot.validators

def isValidatorMember (s : EngineState) (voter : IdentityId) (height : Nat) : Bool :=
  match s.validatorSetForHeight height with
  | some snapshot => decide (voter ∈ snapshot)
  | none => false

/-- Round robin over the sorted identities. -/
def rotate (ids : List IdentityId) (height round : Nat) : Option IdentityId :=
  (ids.insertionSort (· ≤ ·))[(height + round) % ids.length]?

def computeProposerForRound (s : EngineState) (height round : Nat) : Option IdentityId :=
  match s.validatorSetForHeight height with
  | some snapshot => rotate snapshot height round
  | none => rotate s.activeIds height round

/-! ## Counting -/

/-- The votes of one type for a proposal at a height, in the rounds that `inRound` selects. -/
def countVotes (s : EngineState) (voteType : VoteType) (height : Nat) (inRound : Nat → Bool) (proposalId : Hash) : Nat :=
  s.votePool.entries.countP fun e =>
    e.1.height == height && inRound e.1.round && e.1.voteType == voteType && e.2.2 == proposalId

def countPrevotesFor (s : EngineState) (height round : Nat) (proposalId : Hash) : Nat :=
  s.countVotes .preVote height (· == round) proposalId

def countPrecommitsFor (s : EngineState) (height round : Nat) (proposalId : Hash) : Nat :=
  s.countVotes .preCommit height (· == round) proposalId

def countPrecommitsAnyRound (s : EngineState) (height : Nat) (proposalId : Hash) : Nat :=
  s.countVotes .preCommit height (fun _ => true) proposalId

def countCommitsFor (s : EngineState) (height : Nat) (proposalId : Hash) : Nat :=
  s.countVotes .commit height (fun _ => true) proposalId

/-! ## Own votes -/

def ownKey (s : EngineState) (voteType : VoteType) (id : IdentityId) : VotePoolKey :=
  ⟨s.height, s.round, voteType, id⟩

/-- The local validator has a vote of this type at the current height and round; `absent` is the answer
without a local identity. -/
def alreadyVoted (s : EngineState) (voteType : VoteType) (absent : Bool) : Bool :=
  match s.validatorIdentity with
  | some id => decide (s.ownKey voteType id ∈ s.votePool)
  | none => absent

def localSigningKeypair (s : EngineState) (validator : Validator) : Except ConsensusError DilithiumPk :=
  match s.validatorKeypair with
  | none => .error (.validatorError "No signing keypair configured for local validator")
  | some key =>
    if key ≠ validator.consensusKey then
      .error (.validatorError "Local keypair does not match validator consensus key")
    else
      .ok key

def signData (X : Externals) (s : EngineState) (validator : Validator) (data : List UInt8) :
    Except ConsensusError PostQuantumSignature :=
  match s.localSigningKeypair validator with
  | .error e => .error e
  | .ok key =>
    match X.sign key data with
    | .error e => .error (.cryptoError e)
    | .ok signature => .ok ⟨signature, key⟩

def ownVote (X : Externals) (s : EngineState) (proposalId : Hash) (voteType : VoteType) :
    Except ConsensusError ConsensusVote :=
  match s.validatorIdentity with
  | none => .error (.validatorError "No validator identity")
  | some id =>
    match s.validatorManager.getValidator id with
    | none => .error (.validatorError "Validator not found")
    | some validator =>
      let voteId := X.hashBlake3 (proposalId.asSlice ++ id.asSlice ++ [voteType.toByte] ++ toLeBytes 8 s.height ++
        toLeBytes 4 s.round)
      match s.signData X validator (voteEnvelope voteId id proposalId voteType.toByte s.height s.round) with
      | .error e => .error e
      | .ok signature => .ok ⟨voteId, id, proposalId, voteType, s.height, s.round,
          wrapU64 (s.height <<< 32) ||| s.round, signature⟩

/-- The state after the vote is stored, with the activity of the voter updated. -/
def recordOwnVote (env : Env) (vote : ConsensusVote) (s : EngineState) : EngineState :=
  { s with
    votePool := s.votePool.insert (s.ownKey vote.voteType vote.voter) (vote, vote.proposalId)
    validatorManager := s.validatorManager.updateValidatorActivity env.now vote.voter
    log := s.log ++ [.voteCast vote] }

def castVote (X : Externals) (env : Env) (proposalId : Hash) (voteType : VoteType) (s : EngineState) : Outcome :=
  match s.ownVote X proposalId voteType with
  | .error e => (.error e, s)
  | .ok vote => (.ok (), s.recordOwnVote env vote)

end EngineState

end SovereignNetwork.Engine
