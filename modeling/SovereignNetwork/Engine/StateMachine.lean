import SovereignNetwork.Engine.Validation

/-!
# The state machine

The step transitions, the message handlers and the timeout handler of `state_machine.rs`, with
`create_proposal` of `proofs.rs` and the height synchronisation of `mod.rs`.
-/

namespace SovereignNetwork.Engine

open Lib Validators

/-- The attestation of a vote, if its signature has the length of a Dilithium5 signature. -/
def ConsensusVote.attestation? (vote : ConsensusVote) : Option CommitAttestation :=
  if h : vote.signature.signature.length = 4595 then
    some ⟨vote.voter, vote.id, vote.proposalId, vote.round, ⟨vote.signature.signature, h⟩, vote.signature.publicKey⟩
  else
    none

namespace EngineState

variable (X : Externals) (env : Env)

/-! ## Creating a proposal -/

def noProvider : ConsensusError := .validatorError "Cannot propose: no blockchain provider configured"

def getPreviousBlockHash (s : EngineState) : Except ConsensusError Hash :=
  if s.height = 0 then
    .ok 0
  else
    match env.provider with
    | none => .error noProvider
    | some provider =>
      match provider.latestBlockHash with
      | .ok hash => .ok hash
      | .error e => .error (.validatorError
          s!"Cannot propose at height {s.height}: failed to get previous block hash: {e}")

def collectBlockTransactions (s : EngineState) : Except ConsensusError (List UInt8) :=
  match env.provider with
  | none => .error noProvider
  | some provider =>
    if !provider.isReady then
      .error (.validatorError "Cannot propose: blockchain provider is not ready")
    else
      match provider.pendingTransactions with
      | .ok data => .ok data
      | .error e => .error (.validatorError
          s!"Cannot propose at height {s.height}: failed to get pending transactions: {e}")

def createProposal (s : EngineState) : Except ConsensusError ConsensusProposal := do
  match s.validatorIdentity with
  | none => throw (.validatorError "No validator identity")
  | some id =>
    let previousHash ← s.getPreviousBlockHash env
    let blockData ← s.collectBlockTransactions env
    let proposalId := X.hashBlake3 ("ZHTP/PROPOSAL/ID/v1".toUTF8.toList ++ [0] ++ id.asSlice ++
      toLeBytes 8 s.height ++ toLeBytes 4 s.round ++ previousHash.asSlice ++ blockData)
    let consensusProof ← env.consensusProof
    match s.validatorManager.getValidator id with
    | none => throw (.validatorError "Validator not found")
    | some validator =>
      let signature ← s.signData X validator
        (serializeProposalData proposalId id s.height s.round previousHash blockData)
      pure ⟨proposalId, id, s.height, s.round, consensusProtocolVersion, previousHash, blockData, s.height,
        signature, consensusProof⟩

/-! ## Finalization -/

/-- The attestations of a quorum proof: the commit votes of every round, one for each validator. -/
def commitAttestations (s : EngineState) (proposalId : Hash) : List CommitAttestation :=
  let attestations := (s.votePool.entries.filter fun e =>
    e.1.height == s.height && e.1.voteType == .commit && e.2.2 == proposalId).filterMap fun e =>
      e.2.1.attestation?
  (attestations.insertionSort fun a b => a.validatorId ≤ b.validatorId).destutter fun a b =>
    a.validatorId ≠ b.validatorId

def quorumProof (s : EngineState) (proposalId : Hash) : BftQuorumProof :=
  ⟨s.height, proposalId, wrapU32 s.activeCount, s.commitAttestations proposalId⟩

def validateCommittedBlock (s : EngineState) (p : ConsensusProposal) : Except ConsensusError Unit := do
  s.verifyProposalSignature X p
  if p.consensusProof.consensusType ≠ .byzantineFaultTolerance then
    let valid ← X.verifyConsensusProof s.height p.consensusProof
    if !valid then
      throw (.proofVerificationFailed "Invalid consensus proof")

/-- The callback persists the block; without a callback nothing happens. -/
def applyBlockToStateWithProof (p : ConsensusProposal) (proof : BftQuorumProof) (s : EngineState) : Outcome :=
  match env.callback with
  | none => (.ok (), s)
  | some callback =>
    match callback p proof with
    | .ok () => (.ok (), { s with log := s.log ++ [.commitCallback ⟨s.height, p, proof, true⟩] })
    | .error e =>
      (.error (.validatorError
        (s!"BFT safety violation: committed block at height {p.height} could not be applied locally: {e}. " ++
          "Node halted to prevent network deadlock. Recovery: systemctl stop zhtp && rm -rf <data-dir>/sled " ++
          "&& systemctl start zhtp")),
        { s with log := s.log ++ [.commitCallback ⟨s.height, p, proof, false⟩] })

def rewardActivity (id : IdentityId) (m : ValidatorManager) : ValidatorManager :=
  { m with validators := m.validators.modify id fun v =>
      { v with reputation := min (v.reputation + 1) 1000 }.updateActivity env.now }

/-- The proposer and everybody with a vote at the height of the block gain reputation. -/
def updateValidatorMetrics (p : ConsensusProposal) (s : EngineState) : EngineState :=
  let voters := (s.votePool.entries.filter fun e => e.1.height == p.height).map fun e => e.2.1.voter
  { s with validatorManager := (p.proposer :: voters).foldl (fun m id => rewardActivity env id m) s.validatorManager }

def processCommittedBlock (proposalId : Hash) (s : EngineState) : Outcome :=
  let commitCount := s.countCommitsFor s.height proposalId
  let totalValidators := s.activeCount
  if !hasSupermajority commitCount totalValidators then
    (.error (.validatorError
      ("INVARIANT VIOLATION (BFT-A-939): Attempted to process block without commit quorum. " ++
        s!"Commits: {commitCount}/{totalValidators}, Proposal: {hashDebug proposalId}")), s)
  else
    match s.pendingProposals.find? fun p => p.id == proposalId with
    | none =>
      if proposalId ∈ s.proposals then
        (.ok (), s)
      else
        (.error (.validatorError
          (s!"FINALIZATION FAILED: commit quorum reached for proposal {hashDebug proposalId} at H={s.height} " ++
            s!"R={s.round} but the proposal artifact was never received. This node cannot apply the committed " ++
            "block.")), s)
    | some p =>
      let s := { s with pendingProposals := s.pendingProposals.eraseP fun p => p.id == proposalId }
      match s.validateCommittedBlock X p with
      | .error e => (.error e, s)
      | .ok () =>
        (applyBlockToStateWithProof env p (s.quorumProof proposalId) s).andThen fun s =>
          (env.rewards, s.updateValidatorMetrics env p)

def raiseToCommit (s : EngineState) : EngineState :=
  if s.step < .commit then { s with step := .commit } else s

/-- Finalizes when the commit votes of all rounds are a supermajority. -/
def maybeFinalize (height : Nat) (proposalId : Hash) (s : EngineState) : Outcome :=
  if hasSupermajority (s.countCommitsFor height proposalId) s.activeCount then
    if s.height = height then
      processCommittedBlock X env proposalId s.raiseToCommit
    else
      (.ok (), s)
  else
    (.ok (), s)

/-! ## Step transitions -/

def enterPrevoteStep (s : EngineState) : Outcome :=
  if .preVote ≤ s.step then
    (.ok (), s)
  else
    let s := { s with step := .preVote }
    match s.proposals.head? with
    | none => (.ok (), s)
    | some proposalId => castVote X env proposalId .preVote s

def enterPrecommitStep (s : EngineState) : Outcome :=
  if .preCommit < s.step then
    (.ok (), s)
  else
    let s := if s.step < .preCommit then { s with step := .preCommit } else s
    match s.validProposal.or s.proposals.head? with
    | none => (.ok (), s)
    | some proposalId =>
      if s.alreadyVoted .preCommit false then
        (.ok (), s)
      else if hasSupermajority (s.countPrevotesFor s.height s.round proposalId) s.activeCount then
        (castVote X env proposalId .preCommit s).andThen fun s =>
          (.ok (), { s with validProposal := some proposalId })
      else
        (.ok (), s)

def enterCommitStep (s : EngineState) : Outcome :=
  let s := s.raiseToCommit
  match s.validProposal.or s.lockedProposal with
  | none => (.ok (), s)
  | some proposalId =>
    if s.alreadyVoted .commit false then
      (.ok (), s)
    else if hasSupermajority (s.countPrecommitsAnyRound s.height proposalId) s.activeCount then
      (castVote X env proposalId .commit s).andThen fun s => maybeFinalize X env s.height proposalId s
    else
      (.ok (), s)

def addProposal (p : ConsensusProposal) (s : EngineState) : EngineState :=
  { s with proposals := s.proposals ++ [p.id], pendingProposals := s.pendingProposals ++ [p] }

/-- Failures are only warned about, so there is no result. -/
def enterProposeStep (s : EngineState) : EngineState :=
  match s.computeProposerForRound s.height s.round with
  | none => s
  | some proposerId =>
    let s := { s with proposer := some proposerId }
    if s.validatorIdentity = some proposerId then
      match s.createProposal X env with
      | .error _ => s
      | .ok p =>
        let s := s.addProposal p
        (enterPrevoteStep X env { s with log := s.log ++ [.proposalCreated p] }).2
    else
      s

/-! ## Message handlers -/

def resetRound (height round : Nat) (s : EngineState) : EngineState :=
  { s with
    height := height, round := round, step := .propose, proposer := none, proposals := []
    lockedProposal := none, validProposal := none }

def syncRound (round : Nat) (s : EngineState) : EngineState :=
  if round > s.round then (s.resetRound s.height round).snapshotValidatorSet s.height else s

/-- What an admitted proposal triggers in the current step. -/
def voteOnAdmission (proposalId : Hash) (s : EngineState) : Outcome :=
  match s.step with
  | .propose => enterPrevoteStep X env s
  | .preVote =>
    if s.alreadyVoted .preVote true then
      (.ok (), s)
    else
      (castVote X env proposalId .preVote s).andThen fun s =>
        if hasSupermajority (s.countPrevotesFor s.height s.round proposalId) s.activeCount then
          enterPrecommitStep X env { s with validProposal := some proposalId }
        else
          (.ok (), s)
  | _ => (.ok (), s)

def onProposal (p : ConsensusProposal) (s : EngineState) : Outcome :=
  match s.validateNoForkProposal p.height p.round p.id with
  | .error _ => (.ok (), s)
  | .ok () =>
    if !s.isProposalRelevant p then
      (.ok (), s)
    else
      let s := s.syncRound p.round
      if s.proposals ≠ [] then
        (.ok (), s)
      else
        match s.validateIncomingProposal X env p with
        | .error _ => (.ok (), s)
        | .ok () => voteOnAdmission X env p.id (s.addProposal p)

def onPrevote (vote : ConsensusVote) (s : EngineState) : Outcome :=
  if !s.validateRemoteVote X vote then
    (.ok (), s)
  else
    match s.acceptVote vote .preVote with
    | (false, s) => (.ok (), s)
    | (true, s) =>
      let finalize := maybeFinalize X env vote.height vote.proposalId
      if hasSupermajority (s.countPrevotesFor vote.height vote.round vote.proposalId) s.activeCount ∧
          s.step ≤ .preCommit then
        match s.validProposal with
        | some existing =>
          if existing ≠ vote.proposalId then
            (.ok (), s)
          else
            (enterPrecommitStep X env s).andThen finalize
        | none => (enterPrecommitStep X env { s with validProposal := some vote.proposalId }).andThen finalize
      else
        finalize s

def onPrecommit (vote : ConsensusVote) (s : EngineState) : Outcome :=
  if !s.validateRemoteVote X vote then
    (.ok (), s)
  else
    match s.acceptVote vote .preCommit with
    | (false, s) => (.ok (), s)
    | (true, s) =>
      let finalize := maybeFinalize X env vote.height vote.proposalId
      if hasSupermajority (s.countPrecommitsFor vote.height vote.round vote.proposalId) s.activeCount ∧
          s.step ≤ .commit then
        match s.lockedProposal with
        | some existing =>
          if existing ≠ vote.proposalId then
            (.ok (), s)
          else
            (enterCommitStep X env s).andThen finalize
        | none => (enterCommitStep X env { s with lockedProposal := some vote.proposalId }).andThen finalize
      else
        finalize s

def onCommitVote (vote : ConsensusVote) (s : EngineState) : Outcome :=
  if vote.height > s.height then
    (.ok (), s)
  else if vote.height < s.height then
    (.ok (), s)
  else if !s.verifyVoteSignature X vote then
    (.ok (), s)
  else if !s.isValidatorMember vote.voter vote.height then
    (.ok (), s)
  else
    match s.acceptVote vote .commit with
    | (false, s) => (.ok (), s)
    | (true, s) => maybeFinalize X env vote.height vote.proposalId s

/-! ## Timeouts and height synchronisation -/

def syncHeightWithBlockchain (s : EngineState) : Outcome :=
  match env.provider with
  | none => (.ok (), s)
  | some provider =>
    match provider.blockchainHeight with
    | .error _ => (.ok (), s)
    | .ok blockchainHeight =>
      let newHeight := if blockchainHeight = 0 then 1 else blockchainHeight + 1
      let s' := { s with height := newHeight }
      if newHeight ≠ s.height ∧ s.height ≠ 0 ∧ newHeight ≤ s.height then
        (.error (.validatorError ("consensus invariant violated [MonotonicHeight]: committed height must " ++
          "increase strictly monotonically")), s')
      else
        (.ok (), s')

def advanceToNextRound (s : EngineState) : EngineState := s.resetRound (s.height + 1) 0

/-- The next round after a commit timeout: of the synchronised height, or of the height after it when the
synchronisation fails. -/
def roundAfterCommitTimeout (s : EngineState) : EngineState :=
  match s.syncHeightWithBlockchain env with
  | (.error _, s') =>
    let s' := s'.advanceToNextRound
    s'.snapshotValidatorSet s'.height
  | (.ok (), s') =>
    let nextRound := if s'.height = s.height then wrapU32 (s'.round + 1) else 0
    (s'.resetRound s'.height nextRound).snapshotValidatorSet s'.height

def onRoundTimeout (s : EngineState) : Outcome :=
  match s.step with
  | .propose => enterPrevoteStep X env s
  | .preVote => enterPrecommitStep X env s
  | .preCommit => enterCommitStep X env s
  | .commit => (.ok (), enterProposeStep X env (s.roundAfterCommitTimeout env))
  | .newRound => (.ok (), s)

end EngineState

end SovereignNetwork.Engine
