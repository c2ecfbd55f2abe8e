import SovereignNetwork.QuorumProof.Verification
import SovereignNetwork.Validators.Manager

/-!
# Data of the consensus engine

Votes, proposals, the state of `ConsensusEngine` that its handlers read and write, and what the
handlers ask of the world around them.
-/

namespace SovereignNetwork.Engine

open Lib Validators

def minBftValidators : Nat := 3

def consensusProtocolVersion : Nat := 1

inductive VoteType
  | preVote
  | preCommit
  | commit
  | against
  deriving DecidableEq, Repr

def VoteType.toByte : VoteType → UInt8
  | .preVote => 1
  | .preCommit => 2
  | .commit => 3
  | .against => 4

inductive ConsensusStep
  | propose
  | preVote
  | preCommit
  | commit
  | newRound
  deriving DecidableEq, Repr

def ConsensusStep.ordinal : ConsensusStep → Nat
  | .propose => 0
  | .preVote => 1
  | .preCommit => 2
  | .commit => 3
  | .newRound => 4

instance : LT ConsensusStep := ⟨fun a b => a.ordinal < b.ordinal⟩

instance : LE ConsensusStep := ⟨fun a b => a.ordinal ≤ b.ordinal⟩

instance (a b : ConsensusStep) : Decidable (a < b) := inferInstanceAs (Decidable (a.ordinal < b.ordinal))

instance (a b : ConsensusStep) : Decidable (a ≤ b) := inferInstanceAs (Decidable (a.ordinal ≤ b.ordinal))

inductive ConsensusType
  | proofOfStake
  | proofOfStorage
  | proofOfUsefulWork
  | byzantineFaultTolerance
  deriving DecidableEq, Repr

inductive ConsensusError
  | validatorError (message : String)
  | proofVerificationFailed (message : String)
  | byzantineFault (message : String)
  | rewardError (message : String)
  | cryptoError (message : String)
  | invalidPreviousHash (message : String)
  deriving DecidableEq, Repr

/-- A Dilithium signature with the key it claims. -/
structure PostQuantumSignature where
  signature : List UInt8
  publicKey : DilithiumPk
  deriving DecidableEq, Repr

structure ConsensusVote where
  id : Hash
  voter : IdentityId
  proposalId : Hash
  voteType : VoteType
  height : Nat
  round : Nat
  timestamp : Nat
  signature : PostQuantumSignature
  deriving DecidableEq, Repr

/-- The proof attached to a proposal; `evidence` stands for its stake, storage and work parts. -/
structure ConsensusProof where
  consensusType : ConsensusType
  evidence : List UInt8
  deriving DecidableEq, Repr

structure ConsensusProposal where
  id : Hash
  proposer : IdentityId
  height : Nat
  round : Nat
  protocolVersion : Nat
  previousHash : Hash
  blockData : List UInt8
  timestamp : Nat
  signature : PostQuantumSignature
  consensusProof : ConsensusProof
  deriving DecidableEq, Repr

structure VotePoolKey where
  height : Nat
  round : Nat
  voteType : VoteType
  validatorId : IdentityId
  deriving DecidableEq, Repr

structure ValidatorSetSnapshot where
  height : Nat
  validators : List IdentityId
  deriving DecidableEq, Repr

/-- A call of the commit callback, with the height of the engine at the call. -/
structure CommitCallback where
  height : Nat
  proposal : ConsensusProposal
  proof : BftQuorumProof
  succeeded : Bool

/-- What the engine hands to the outside: its own votes and proposals, and commit callbacks. -/
inductive Effect
  | voteCast (vote : ConsensusVote)
  | proposalCreated (proposal : ConsensusProposal)
  | commitCallback (call : CommitCallback)

/-- The engine. The fields of `current_round` are fields of the state; `log` collects the effects, oldest
first; the keypair is named by its public key. -/
structure EngineState where
  validatorIdentity : Option IdentityId
  validatorKeypair : Option DilithiumPk
  validatorManager : ValidatorManager
  height : Nat
  round : Nat
  step : ConsensusStep
  proposer : Option IdentityId
  proposals : List Hash
  lockedProposal : Option Hash
  validProposal : Option Hash
  pendingProposals : List ConsensusProposal
  votePool : HashMap VotePoolKey (ConsensusVote × Hash)
  validatorSetHistory : List ValidatorSetSnapshot
  firstVotes : HashMap VotePoolKey Hash
  log : List Effect

namespace EngineState

def castVotes (s : EngineState) : List ConsensusVote :=
  s.log.filterMap fun
    | .voteCast vote => some vote
    | _ => none

def createdProposals (s : EngineState) : List ConsensusProposal :=
  s.log.filterMap fun
    | .proposalCreated proposal => some proposal
    | _ => none

def commitCallbacks (s : EngineState) : List CommitCallback :=
  s.log.filterMap fun
    | .commitCallback call => some call
    | _ => none

variable {s : EngineState}

@[simp] theorem mem_castVotes {vote : ConsensusVote} : vote ∈ s.castVotes ↔ .voteCast vote ∈ s.log := by
  simp only [castVotes, List.mem_filterMap]
  constructor
  · rintro ⟨eff, hmem, heq⟩
    cases eff with
    | voteCast v => cases heq; exact hmem
    | _ => cases heq
  · exact fun hmem => ⟨_, hmem, rfl⟩

@[simp] theorem mem_createdProposals {p : ConsensusProposal} : p ∈ s.createdProposals ↔ .proposalCreated p ∈ s.log := by
  simp only [createdProposals, List.mem_filterMap]
  constructor
  · rintro ⟨eff, hmem, heq⟩
    cases eff with
    | proposalCreated p => cases heq; exact hmem
    | _ => cases heq
  · exact fun hmem => ⟨_, hmem, rfl⟩

@[simp] theorem mem_commitCallbacks {call : CommitCallback} :
    call ∈ s.commitCallbacks ↔ .commitCallback call ∈ s.log := by
  simp only [commitCallbacks, List.mem_filterMap]
  constructor
  · rintro ⟨eff, hmem, heq⟩
    cases eff with
    | commitCallback call => cases heq; exact hmem
    | _ => cases heq
  · exact fun hmem => ⟨_, hmem, rfl⟩

end EngineState

/-- The functions taken as given: BLAKE3, Dilithium5, the check of a non-BFT consensus proof, voting power. -/
structure Externals where
  hashBlake3 : List UInt8 → Hash
  verify : SignatureVerifier
  sign : DilithiumPk → List UInt8 → Except String (List UInt8)
  verifyConsensusProof : Nat → ConsensusProof → Except ConsensusError Bool
  votingPower : PowerFormula

/-- The answers of the blockchain provider during one event. -/
structure Provider where
  blockchainHeight : Except String Nat
  latestBlockHash : Except String Hash
  isReady : Bool
  pendingTransactions : Except String (List UInt8)
  decodeBlockData : List UInt8 → Except String (Nat × Nat)

/-- What the handlers ask of the world during one event. -/
structure Env where
  now : Nat
  provider : Option Provider
  callback : Option (ConsensusProposal → BftQuorumProof → Except String Unit)
  consensusProof : Except ConsensusError ConsensusProof
  rewards : Except ConsensusError Unit

/-- The result of a fallible handler: the state is kept on an error. -/
abbrev Outcome := Except ConsensusError Unit × EngineState

/-- Sequencing with the question mark operator. -/
def Outcome.andThen (o : Outcome) (k : EngineState → Outcome) : Outcome :=
  match o with
  | (.ok (), s) => k s
  | (.error e, s) => (.error e, s)

end SovereignNetwork.Engine
