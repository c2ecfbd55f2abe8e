import SovereignNetwork.Engine.Votes

/-!
# Checks of incoming messages

`validation.rs`, the equivocation check of `fault_detector.rs`, and the admission of a remote vote to
the pool.
-/

namespace SovereignNetwork.Engine

open Lib Validators

def hashDisplay (h : Hash) : String := hexEncode h.asSlice

def hashDebug (h : Hash) : String :=
  "Hash([" ++ ", ".intercalate (h.asSlice.map fun b => toString b.toNat) ++ "])"

def ConsensusVote.key (vote : ConsensusVote) : VotePoolKey :=
  ⟨vote.height, vote.round, vote.voteType, vote.voter⟩

def ConsensusVote.envelope (vote : ConsensusVote) : List UInt8 :=
  voteEnvelope vote.id vote.voter vote.proposalId vote.voteType.toByte vote.height vote.round

/-- A verification error counts as an invalid signature. -/
def Externals.verifySignature (X : Externals) (data : List UInt8) (signature : PostQuantumSignature) : Bool :=
  match X.verify data signature.signature signature.publicKey with
  | .ok valid => valid
  | .error _ => false

def serializeProposalData (proposalId : Hash) (proposer : IdentityId) (height round : Nat) (previousHash : Hash)
    (blockData : List UInt8) : List UInt8 :=
  "ZHTP/PROPOSAL/SIG/v1".toUTF8.toList ++ [0] ++ proposalId.asSlice ++ proposer.asSlice ++ toLeBytes 8 height ++
    toLeBytes 4 round ++ previousHash.asSlice ++ toLeBytes 4 blockData.length ++ blockData

namespace EngineState

def verifyVoteSignature (X : Externals) (s : EngineState) (vote : ConsensusVote) : Bool :=
  if vote.signature.publicKey = 0 then
    false
  else
    match s.validatorManager.getValidator vote.voter with
    | none => false
    | some validator =>
      if validator.consensusKey = 0 then
        false
      else if validator.consensusKey ≠ vote.signature.publicKey then
        false
      else
        X.verifySignature vote.envelope vote.signature

/-- Votes of another height, of an earlier round and of type `Against` are not for this engine. -/
def validateRemoteVote (X : Externals) (s : EngineState) (vote : ConsensusVote) : Bool :=
  if vote.height < s.height then
    false
  else if vote.height > s.height then
    false
  else if !s.verifyVoteSignature X vote then
    false
  else if !s.isValidatorMember vote.voter vote.height then
    false
  else if vote.round < s.round then
    false
  else
    vote.voteType != .against

/-- The first vote of a key is remembered; a later one for another proposal is evidence. -/
def detectEquivocation (vote : ConsensusVote) (s : EngineState) : Bool × EngineState :=
  match s.firstVotes.lookup vote.key with
  | some first => (first != vote.proposalId, s)
  | none => (false, { s with firstVotes := s.firstVotes.insert vote.key vote.proposalId })

/-- The common part of the vote handlers: a vote that conflicts with the first one of its key, or whose key
the pool holds already, is not stored. -/
def acceptVote (vote : ConsensusVote) (voteType : VoteType) (s : EngineState) : Bool × EngineState :=
  match s.detectEquivocation vote with
  | (true, s) => (false, s)
  | (false, s) =>
    let key : VotePoolKey := ⟨vote.height, vote.round, voteType, vote.voter⟩
    match s.votePool.lookup key with
    | some _ => (false, s)
    | none => (true, { s with votePool := s.votePool.insert key (vote, vote.proposalId) })

def validatePreviousHash (env : Env) (height : Nat) (previousHash : Hash) : Except ConsensusError Unit :=
  if height = 0 then
    if previousHash ≠ 0 then
      .error (.invalidPreviousHash s!"Genesis block must have zero previous hash, got: {hashDisplay previousHash}")
    else
      .ok ()
  else
    match env.provider with
    | none => .ok ()
    | some provider =>
      let chainHeight := match provider.blockchainHeight with
        | .ok h => h
        | .error _ => 0
      if chainHeight = height - 1 then
        match provider.latestBlockHash with
        | .ok expectedHash =>
          if previousHash ≠ expectedHash then
            .error (.invalidPreviousHash
              (s!"Proposal for height {height} claims previous_hash={hashDisplay previousHash} " ++
                s!"but local chain tip is {hashDisplay expectedHash}"))
          else
            .ok ()
        | .error _ => .ok ()
      else
        .ok ()

def verifyProposalSignature (X : Externals) (s : EngineState) (p : ConsensusProposal) : Except ConsensusError Unit :=
  let rejected (text : String) : Except ConsensusError Unit :=
    .error (.proofVerificationFailed ("Proposal signature rejected: " ++ text))
  let place := s!" proposer {hashDisplay p.proposer} at H={p.height} R={p.round}"
  if p.signature.publicKey = 0 then
    rejected ("empty consensus key from" ++ place)
  else
    match s.validatorManager.getValidator p.proposer with
    | none => rejected s!"proposer {hashDisplay p.proposer} not found in validator registry"
    | some validator =>
      if validator.consensusKey = 0 then
        rejected s!"proposer {hashDisplay p.proposer} has non-verifiable consensus key (len=2592)"
      else if validator.consensusKey ≠ p.signature.publicKey then
        rejected ("consensus key mismatch for" ++ place)
      else if !X.verifySignature
          (serializeProposalData p.id p.proposer p.height p.round p.previousHash p.blockData) p.signature then
        rejected ("invalid signature from" ++ place)
      else
        .ok ()

/-- The admission gate for a received proposal. -/
def validateIncomingProposal (X : Externals) (env : Env) (s : EngineState) (p : ConsensusProposal) :
    Except ConsensusError Unit := do
  if p.protocolVersion ≠ consensusProtocolVersion then
    throw (.byzantineFault
      (s!"Proposal rejected: protocol version mismatch — proposal has v{p.protocolVersion}, we require " ++
        s!"v{consensusProtocolVersion} (proposer {hashDisplay p.proposer} at H={p.height} R={p.round})"))
  let expectedProposer := s.computeProposerForRound p.height p.round
  if expectedProposer ≠ some p.proposer then
    throw (.byzantineFault
      (s!"Proposal rejected: proposer {hashDisplay p.proposer} is not the expected leader for H={p.height} " ++
        s!"R={p.round} (expected " ++
        (match expectedProposer with
        | none => "None"
        | some id => "Some(" ++ hashDebug id ++ ")") ++ ")"))
  s.verifyProposalSignature X p
  validatePreviousHash env p.height p.previousHash
  match env.provider with
  | none => pure ()
  | some provider =>
    match provider.decodeBlockData p.blockData with
    | .ok _ => pure ()
    | .error e => throw (.byzantineFault
        (s!"Proposal rejected: block_data decode failed for H={p.height} R={p.round} from " ++
          s!"{hashDisplay p.proposer}: {e}"))

def validateNoForkProposal (s : EngineState) (height round : Nat) (proposalId : Hash) :
    Except ConsensusError Unit :=
  if height < s.height then
    .error (.byzantineFault
      (s!"BFT FORK REJECTED: proposal {hashDebug proposalId} targets height {height} which is below the current " ++
        s!"proposal height {s.height}. In BFT consensus, committed blocks are final and irreversible. A proposal " ++
        "for an already-committed height is an invalid fork attempt and is rejected immediately."))
  else if height = s.height ∧ round = s.round then
    match s.validProposal with
    | none => .ok ()
    | some committedId =>
      if committedId ≠ proposalId then
        .error (.byzantineFault
          (s!"BFT FORK REJECTED: proposal {hashDebug proposalId} conflicts with already-agreed proposal " ++
            s!"{hashDebug committedId} at height {height} round {round}. In BFT consensus, once 2/3+1 " ++
            "validators have prevoted a block in a round, a conflicting proposal for the same round is an " ++
            "invalid fork attempt."))
      else
        .ok ()
  else
    .ok ()

def isProposalRelevant (s : EngineState) (p : ConsensusProposal) : Bool :=
  if p.height ≠ s.height then
    false
  else
    decide (s.step < .commit)

end EngineState

end SovereignNetwork.Engine
