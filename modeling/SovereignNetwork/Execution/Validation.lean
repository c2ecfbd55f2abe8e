import SovereignNetwork.Execution.CurveTx

/-!
# Validation before a transaction is applied

The stateless and the stateful checks of the executor. They read the store and never write it.
-/

namespace SovereignNetwork.Execution

open Lib Mutator

variable (X : Externals) (E : BlockExecutor)

/-- The code points that `str::trim` removes. -/
def isWhitespace (c : Char) : Bool :=
  let n := c.toNat
  (9 ≤ n && n ≤ 13) || n = 0x20 || n = 0x85 || n = 0xA0 || n = 0x1680 || (0x2000 ≤ n && n ≤ 0x200A) || n = 0x2028
    || n = 0x2029 || n = 0x202F || n = 0x205F || n = 0x3000

def isBlank (s : String) : Bool := s.toList.all isWhitespace

/-- The data that a coinbase must not carry. -/
def TransactionPayload.isNonPhase2 : TransactionPayload → Bool
  | .identity _ => true
  | .wallet _ => true
  | .validator _ => true
  | .daoProposal _ => true
  | .daoVote _ => true
  | .daoExecution _ => true
  | .ubiClaim _ => true
  | .profitDeclaration _ => true
  | _ => false

def requireData {α : Type} (message : String) : Option α → Except TxApplyError α
  | some a => .ok a
  | none => .error (.invalidType message)

/-- The structural checks of `validate_tx_stateless`. -/
def checkStructure (tx : Transaction) : Except TxApplyError Unit :=
  match tx.transactionType with
  | .transfer => do
    if tx.inputs.isEmpty then
      throw .emptyInputs
    if tx.outputs.isEmpty then
      throw .emptyOutputs
    match duplicateInput [] tx.inputs with
    | some op => throw (.duplicateInput op)
    | none => return ()
  | .coinbase => do
    if !tx.inputs.isEmpty then
      throw (.invalidType "Coinbase must have no inputs")
    if tx.outputs.isEmpty then
      throw .emptyOutputs
    if tx.fee ≠ 0 then
      throw (.invalidType "Coinbase transaction fee must be 0")
    if tx.payload.isNonPhase2 then
      throw (.invalidType "Coinbase must not have non-Phase-2 data fields")
  | .tokenTransfer => do
    let data ← requireData "TokenTransfer requires token_transfer_data field" tx.tokenTransferData
    if data.amount = 0 then
      throw (.invalidType "Token transfer amount must be greater than 0")
  | .tokenMint => do
    if tx.version < 2 then
      throw (.invalidType "TokenMint transactions not supported in this serialization version")
    let data ← requireData "TokenMint requires token_mint_data field" tx.tokenMintData
    if data.amount = 0 then
      throw (.invalidType "TokenMint amount must be greater than 0")
    if !tx.inputs.isEmpty || !tx.outputs.isEmpty then
      throw (.invalidType "TokenMint must not have UTXO inputs or outputs")
    if tx.fee ≠ 0 then
      throw (.invalidType "TokenMint transaction fee must be 0 in Phase 2")
  | .tokenCreation => do
    if !tx.inputs.isEmpty then
      throw (.invalidType "TokenCreation must not have UTXO inputs")
    if !tx.outputs.isEmpty then
      throw (.invalidType "TokenCreation must not have UTXO outputs")
    match X.decodeTokenCreation tx.memo with
    | .ok _ => return ()
    | .error e => throw (.invalidType s!"TokenCreation requires canonical memo payload: {e}")
  | .contractDeployment => do
    if !tx.inputs.isEmpty || !tx.outputs.isEmpty then
      throw (.invalidType "ContractDeployment must not have inputs or outputs")
    match X.decodeContractDeployment tx.memo with
    | .ok _ => return ()
    | .error e => throw (.invalidType s!"ContractDeployment requires canonical deployment memo: {e}")
  | .contractExecution => do
    if !tx.inputs.isEmpty || !tx.outputs.isEmpty then
      throw (.invalidType "ContractExecution must not have inputs or outputs")
    match X.decodeContractExecution tx.memo with
    | .ok _ => return ()
    | .error e => throw (.invalidType s!"Invalid ContractExecution memo: {e}")
  | .daoProposal => do
    let data ← requireData "DaoProposal requires dao_proposal_data field" tx.daoProposalData
    if isBlank data.proposer || isBlank data.title then
      throw (.invalidType "DaoProposal proposer/title must be non-empty")
  | .daoVote => do
    let data ← requireData "DaoVote requires dao_vote_data field" tx.daoVoteData
    if isBlank data.voter || isBlank data.voteChoice then
      throw (.invalidType "DaoVote voter/vote_choice must be non-empty")
  | .daoExecution => do
    let data ← requireData "DaoExecution requires dao_execution_data field" tx.daoExecutionData
    if data.proposalId = 0 then
      throw (.invalidType "DaoExecution proposal_id must be non-zero")
    if isBlank data.executor then
      throw (.invalidType "DaoExecution executor must be non-empty")
  | _ => return ()

/-- The proof of one input, bound to the Merkle root of the chain. An empty tree binds nothing. -/
def verifyInputProof (proof : ZkTransactionProof) : TxProg Unit :=
  if proof.hasEmptyProofs then pure ()
  else
    match X.verifyTransaction proof with
    | .ok false => .fail (.invalidType "Invalid ZK proof")
    | .error e => .fail (.invalidType s!"ZK verification failed: {e}")
    | .ok true =>
      match proof.extractMerkleRoot with
      | none => pure ()
      | some proofRoot => do
        let chainRoot ← Sled.getUtxoMerkleRoot
        match chainRoot with
        | none => return ()
        | some expectedRoot =>
          if proofRoot ≠ expectedRoot then
            let proofHex := hexEncode ((hashBytes proofRoot).take 8)
            let chainHex := hexEncode ((hashBytes expectedRoot).take 8)
            .fail (.invalidType s!"ZK proof Merkle root mismatch: proof={proofHex} chain={chainHex}")

def verifyInputProofs : List TransactionInput → TxProg Unit
  | [] => pure ()
  | input :: inputs => do
    verifyInputProof X input.zkProof
    verifyInputProofs inputs

def checkMinFee (tx : Transaction) : Except TxApplyError Unit :=
  -- Transactions without inputs are system transactions.
  if tx.inputs.isEmpty then .ok ()
  else if tx.fee < X.calculateMinFee tx then .error (.insufficientFee (X.calculateMinFee tx) tx.fee)
  else .ok ()

def validateTxFee (tx : Transaction) : Except TxApplyError Unit :=
  if E.skipFeeValidation then .ok ()
  else
    match tx.transactionType with
    | .coinbase => .ok ()
    | .tokenTransfer => .ok ()
    | .tokenMint => .ok ()
    | .tokenCreation =>
      if tx.fee ≠ 0 ∧ tx.fee ≠ E.tokenCreationFee then
        .error (.invalidType s!"TokenCreation transaction fee must equal 0 or {E.tokenCreationFee}")
      else .ok ()
    | _ => checkMinFee X tx

def validateTxStateless (tx : Transaction) : TxProg Unit := do
  .ofExcept (checkStructure X tx)
  verifyInputProofs X tx.inputs
  .ofExcept (validateTxFee X E tx)

def requireUtxos : List TransactionInput → TxProg Unit
  | [] => pure ()
  | input :: inputs => do
    let utxo ← Sled.getUtxo input.outPoint
    if utxo.isNone then
      .fail (.utxoNotFound input.outPoint)
    requireUtxos inputs

def requireNonce (data : TokenTransferData) : TxProg Unit := do
  let expectedNonce ← Sled.getTokenNonce (storageToken X data.tokenId) data.fromAddr
  if data.nonce ≠ expectedNonce then
    .fail (.invalidNonce expectedNonce data.nonce)

def validateTxStateful (tx : Transaction) : TxProg Unit :=
  match tx.transactionType with
  | .transfer => requireUtxos tx.inputs
  | .tokenTransfer =>
    match tx.tokenTransferData with
    | none => .fail (.invalidType "TokenTransfer requires token_transfer_data")
    | some data => requireNonce X data
  | _ => pure ()

/-! ## Validation only reads -/

theorem readOnly_verifyInputProof (proof : ZkTransactionProof) : (verifyInputProof X proof).ReadOnly := by
  unfold verifyInputProof
  split
  · trivial
  · split
    · trivial
    · trivial
    · split
      · trivial
      · refine Prog.ReadOnly.bind (Prog.ReadOnly.get _) ?_
        rintro (_ | root)
        · trivial
        · simp only
          split <;> trivial

theorem readOnly_verifyInputProofs (inputs : List TransactionInput) : (verifyInputProofs X inputs).ReadOnly := by
  induction inputs with
  | nil => trivial
  | cons input inputs ih => exact (readOnly_verifyInputProof X _).bind fun _ => ih

theorem readOnly_validateTxStateless (tx : Transaction) : (validateTxStateless X E tx).ReadOnly :=
  (Prog.ReadOnly.ofExcept _).bind fun _ =>
    (readOnly_verifyInputProofs X tx.inputs).bind fun _ => Prog.ReadOnly.ofExcept _

theorem readOnly_requireUtxos (inputs : List TransactionInput) : (requireUtxos inputs).ReadOnly := by
  induction inputs with
  | nil => trivial
  | cons input inputs ih =>
    refine Prog.ReadOnly.bind (Prog.ReadOnly.get _) fun utxo => ?_
    cases utxo with
    | none => trivial
    | some utxo => exact ih

theorem readOnly_requireNonce (data : TokenTransferData) : (requireNonce X data).ReadOnly := by
  refine Prog.ReadOnly.bind ((Prog.ReadOnly.get _).bind fun _ => trivial) fun nonce => ?_
  show Prog.ReadOnly (if data.nonce ≠ nonce then _ else _)
  split <;> trivial

theorem readOnly_validateTxStateful (tx : Transaction) : (validateTxStateful X tx).ReadOnly := by
  unfold validateTxStateful
  split
  · exact readOnly_requireUtxos _
  · split
    · trivial
    · exact readOnly_requireNonce X _
  · trivial

end SovereignNetwork.Execution
