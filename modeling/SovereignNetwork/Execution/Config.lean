import SovereignNetwork.Execution.Types

/-!
# The executor's configuration and its surroundings

Limits and fees of a `BlockExecutor`, the resources that a block may use, and the functions of other crates that
the executor calls.
-/

namespace SovereignNetwork.Execution

/-! ## Payloads in transaction memos -/

structure TokenCreationPayloadV1 where
  name : String
  symbol : String
  initialSupply : Nat
  decimals : Nat
  treasuryAllocationBps : Nat
  treasuryRecipient : Address
  deriving DecidableEq

/-- The shares of the creator and of the treasury. -/
def TokenCreationPayloadV1.splitInitialSupply (p : TokenCreationPayloadV1) : Nat × Nat :=
  let treasury := p.initialSupply * p.treasuryAllocationBps / 10000
  (p.initialSupply - treasury, treasury)

structure ContractDeploymentPayloadV1 where
  contractType : String
  code : List UInt8
  abi : List UInt8
  initArgs : List UInt8
  gasLimit : Nat
  memoryLimitBytes : Nat
  deriving DecidableEq

/-- What the executor uses of a decoded `ContractExecution` memo. -/
structure DecodedContractExecutionMemo where
  contractId : Option (Bytes 32)
  method : String
  params : List UInt8
  deriving DecidableEq

/-- Hashes, binary codecs, proof verification and fee rules that the executor takes from elsewhere. -/
structure Externals where
  hashTransaction : Transaction → Hash
  /-- Poseidon hash of two Merkle nodes. -/
  hashPair : Hash → Hash → Hash
  keyIdOf : DilithiumPk → Bytes 32
  generateLibTokenId : TokenId
  generateCustomTokenId : String → String → TokenId
  deriveCbeTokenId : TokenId
  daoStateContractId : Bytes 32
  verifyTransaction : ZkTransactionProof → Except String Bool
  blockSize : Block → Nat
  /-- The fee that the fee model computes for a transaction. -/
  calculateMinFee : Transaction → Nat
  decodeTokenCreation : List UInt8 → Except String TokenCreationPayloadV1
  decodeContractDeployment : List UInt8 → Except String ContractDeploymentPayloadV1
  decodeContractExecution : List UInt8 → Except String DecodedContractExecutionMemo
  serializeProposal : DaoProposalData → List UInt8
  deserializeProposal : List UInt8 → Except String DaoProposalData
  serializeVote : DaoVoteData → List UInt8
  serializeExecution : DaoExecutionData → List UInt8
  serializeLimits : Nat → Nat → List UInt8
  deserializeLimits : List UInt8 → Except String (Nat × Nat)
  /-- A call record: block height, method, caller and parameters. -/
  serializeCall : Nat → String → Bytes 32 → List UInt8 → List UInt8

/-! ## Resources of a block -/

structure BlockLimits where
  maxPayloadBytes : Nat
  maxWitnessBytes : Nat
  maxVerifyUnits : Nat
  maxStateWriteBytes : Nat
  maxTxCount : Nat
  deriving DecidableEq

def BlockLimits.default : BlockLimits where
  maxPayloadBytes := 1048576
  maxWitnessBytes := 524288
  maxVerifyUnits := 1000000
  maxStateWriteBytes := 2097152
  maxTxCount := 10000

structure BlockAccumulator where
  payloadBytes : Nat := 0
  witnessBytes : Nat := 0
  verifyUnits : Nat := 0
  stateWriteBytes : Nat := 0
  txCount : Nat := 0
  deriving DecidableEq

structure TxResources where
  payloadBytes : Nat
  witnessBytes : Nat
  verifyUnits : Nat
  stateWriteBytes : Nat

def BlockAccumulator.addTx (limits : BlockLimits) (r : TxResources) (acc : BlockAccumulator) :
    Except BlockApplyError BlockAccumulator := do
  let newPayload := saturatingAddU64 acc.payloadBytes r.payloadBytes
  if newPayload > limits.maxPayloadBytes then
    throw (.blockTooLarge newPayload limits.maxPayloadBytes)
  let newWitness := saturatingAddU64 acc.witnessBytes r.witnessBytes
  if newWitness > limits.maxWitnessBytes then
    throw (.validationFailed s!"witness bytes exceeded: {newWitness} > {limits.maxWitnessBytes}")
  let newVerify := saturatingAddU64 acc.verifyUnits r.verifyUnits
  if newVerify > limits.maxVerifyUnits then
    throw (.validationFailed s!"verify units exceeded: {newVerify} > {limits.maxVerifyUnits}")
  let newStateWrite := saturatingAddU64 acc.stateWriteBytes r.stateWriteBytes
  if newStateWrite > limits.maxStateWriteBytes then
    throw (.validationFailed s!"state write bytes exceeded: {newStateWrite} > {limits.maxStateWriteBytes}")
  let newTxCount := min (acc.txCount + 1) (2 ^ 32 - 1)
  if newTxCount > limits.maxTxCount then
    throw (.validationFailed s!"transaction count exceeded: {newTxCount} > {limits.maxTxCount}")
  return ⟨newPayload, newWitness, newVerify, newStateWrite, newTxCount⟩

namespace Transaction

def estimatePayloadSize (tx : Transaction) : Nat :=
  let optionalData := match tx.payload with
    | .identity _ => 256
    | .wallet _ => 128
    | .validator _ => 256
    | .tokenTransfer _ => 104
    | .tokenMint _ => 72
    | _ => 0
  14 + tx.memo.length + tx.inputs.length * 68 + tx.outputs.length * 96 + optionalData

def estimateWitnessSize (tx : Transaction) : Nat :=
  tx.signature.signature.length + (tx.inputs.map fun i =>
    i.zkProof.amountProof.proofData.length + i.zkProof.balanceProof.proofData.length
      + i.zkProof.nullifierProof.proofData.length).sum

def estimateVerifyUnits (tx : Transaction) : Nat := 1 + tx.inputs.length * 30

def estimateStateWrites (tx : Transaction) : Nat :=
  match tx.transactionType with
  | .transfer => (tx.inputs.length + tx.outputs.length) * 150
  | .coinbase => tx.outputs.length * 150
  | .tokenTransfer => 200
  | .tokenMint => 100
  | _ => 500

def calculateResources (tx : Transaction) : TxResources where
  payloadBytes := tx.estimatePayloadSize
  witnessBytes := tx.estimateWitnessSize
  verifyUnits := tx.estimateVerifyUnits
  stateWriteBytes := tx.estimateStateWrites

end Transaction

/-- A `BlockExecutor` without its store. -/
structure BlockExecutor where
  blockReward : Nat
  feeSinkAddress : Address
  limits : BlockLimits
  tokenCreationFee : Nat
  skipFeeValidation : Bool
  skipPrevHashValidation : Bool
  deriving DecidableEq

/-- `BlockExecutor::new` with the default fee model and limits, for a given fee sink. -/
def BlockExecutor.withStore (feeSinkAddress : Address) : BlockExecutor where
  blockReward := 50000000
  feeSinkAddress := feeSinkAddress
  limits := .default
  tokenCreationFee := 1000
  skipFeeValidation := false
  skipPrevHashValidation := false

end SovereignNetwork.Execution
