import SovereignNetwork.Lib.HashMap
import SovereignNetwork.Types

/-!
# Data of block execution

Transactions, blocks and the errors of the block executor. Data that the executor stores or hashes without a look
inside is bytes.
-/

namespace SovereignNetwork.Execution

open Lib

abbrev Address := Bytes 32

abbrev TokenId := Bytes 32

def Address.ZERO : Address := 0

def TokenId.NATIVE : TokenId := 0

structure OutPoint where
  tx : Hash
  index : Nat
  deriving DecidableEq

structure PublicKey where
  dilithiumPk : DilithiumPk
  kyberPk : Bytes 1568
  keyId : Bytes 32
  deriving DecidableEq

def PublicKey.ofKeyId (keyId : Bytes 32) : PublicKey where
  dilithiumPk := 0
  kyberPk := 0
  keyId := keyId

structure Signature where
  signature : List UInt8
  publicKey : PublicKey
  deriving DecidableEq

/-! ## Transactions -/

inductive TransactionType
  | transfer
  | coinbase
  | tokenTransfer
  | identityRegistration
  | identityUpdate
  | identityRevocation
  | contractDeployment
  | contractExecution
  | sessionCreation
  | sessionTermination
  | contentUpload
  | ubiDistribution
  | walletRegistration
  | validatorRegistration
  | validatorUpdate
  | validatorUnregister
  | daoProposal
  | daoVote
  | daoExecution
  | difficultyUpdate
  | ubiClaim
  | profitDeclaration
  | governanceConfigUpdate
  | walletUpdate
  | tokenMint
  | tokenCreation
  | tokenSwap
  | createPool
  | addLiquidity
  | removeLiquidity
  | bondingCurveDeploy
  | bondingCurveBuy
  | bondingCurveSell
  | bondingCurveGraduate
  | updateOracleCommittee
  | updateOracleConfig
  | oracleAttestation
  | cancelOracleUpdate
  | initEntityRegistry
  | recordOnRampTrade
  | treasuryAllocation
  | initCbeToken
  | createEmploymentContract
  | processPayroll
  | daoStake
  | daoUnstake
  | domainRegistration
  | domainUpdate
  | gatewayRegistration
  | gatewayUpdate
  | gatewayUnregister
  | nftCreateCollection
  | nftMint
  | nftTransfer
  | nftBurn
  deriving DecidableEq

structure ZkProof where
  proofData : List UInt8
  publicInputs : List UInt8
  verificationKey : List UInt8
  backendProof : Option (List UInt8)
  deriving DecidableEq

def ZkProof.isEmpty (p : ZkProof) : Bool :=
  p.backendProof.isNone && p.proofData.isEmpty && p.publicInputs.isEmpty && p.verificationKey.isEmpty

structure ZkTransactionProof where
  amountProof : ZkProof
  balanceProof : ZkProof
  nullifierProof : ZkProof
  deriving DecidableEq

def ZkTransactionProof.hasEmptyProofs (p : ZkTransactionProof) : Bool :=
  p.amountProof.isEmpty || p.balanceProof.isEmpty || p.nullifierProof.isEmpty

def ZkTransactionProof.extractMerkleRoot (p : ZkTransactionProof) : Option Hash :=
  if p.amountProof.publicInputs.length < 64 then none
  else some (BitVec.ofNat _ (fromBeBytes ((p.amountProof.publicInputs.drop 32).take 32)))

structure TransactionInput where
  previousOutput : Hash
  outputIndex : Nat
  nullifier : Hash
  zkProof : ZkTransactionProof
  deriving DecidableEq

def TransactionInput.outPoint (i : TransactionInput) : OutPoint := ⟨i.previousOutput, i.outputIndex⟩

structure TransactionOutput where
  commitment : Hash
  note : Hash
  recipient : PublicKey
  merkleLeaf : Hash
  deriving DecidableEq

structure TokenTransferData where
  tokenId : TokenId
  fromAddr : Address
  toAddr : Address
  amount : Nat
  nonce : Nat
  deriving DecidableEq

structure TokenMintData where
  tokenId : TokenId
  toAddr : Address
  amount : Nat
  deriving DecidableEq

structure WalletTransactionData where
  walletId : Hash
  walletType : String
  walletName : String
  walletAlias : Option String
  publicKey : List UInt8
  ownerIdentityId : Option Hash
  seedCommitment : Hash
  createdAt : Nat
  registrationFee : Nat
  capabilities : Nat
  initialBalance : Nat
  deriving DecidableEq

structure DaoProposalData where
  proposalId : Hash
  proposer : String
  title : String
  description : String
  proposalType : String
  votingPeriodBlocks : Nat
  quorumRequired : Nat
  executionParams : Option (List UInt8)
  createdAt : Nat
  createdAtHeight : Nat
  deriving DecidableEq

structure DaoVoteData where
  voteId : Hash
  proposalId : Hash
  voter : String
  voteChoice : String
  votingPower : Nat
  justification : Option String
  timestamp : Nat
  deriving DecidableEq

structure DaoExecutionData where
  proposalId : Hash
  executor : String
  executionType : String
  recipient : Option String
  amount : Option Nat
  executedAt : Nat
  executedAtHeight : Nat
  multisigSignatures : List (List UInt8)
  deriving DecidableEq

structure TreasuryAllocationData where
  sourceTreasuryKeyId : Address
  destinationKeyId : Address
  amount : Nat
  spendingCategory : String
  proposalId : Bytes 32
  /-- The threshold approvals, which the executor does not look at. -/
  approvals : List UInt8
  deriving DecidableEq

structure ProcessPayrollData where
  contractId : Bytes 32
  amountCbe : Nat
  collaboratorAddress : Address
  deliverableHash : Bytes 32
  deriving DecidableEq

structure DaoStakeData where
  sectorDaoKeyId : Address
  staker : Address
  amount : Nat
  nonce : Nat
  lockBlocks : Nat
  deriving DecidableEq

structure DaoUnstakeData where
  sectorDaoKeyId : Address
  staker : Address
  nonce : Nat
  deriving DecidableEq

/-- The payloads that the executor tells apart. `other` is any of the rest. -/
inductive TransactionPayload
  | none
  | identity (data : List UInt8)
  | wallet (data : WalletTransactionData)
  | validator (data : List UInt8)
  | daoProposal (data : DaoProposalData)
  | daoVote (data : DaoVoteData)
  | daoExecution (data : DaoExecutionData)
  | ubiClaim (data : List UInt8)
  | profitDeclaration (data : List UInt8)
  | tokenTransfer (data : TokenTransferData)
  | tokenMint (data : TokenMintData)
  | treasuryAllocation (data : TreasuryAllocationData)
  | processPayroll (data : ProcessPayrollData)
  | daoStake (data : DaoStakeData)
  | daoUnstake (data : DaoUnstakeData)
  | other (data : List UInt8)
  deriving DecidableEq

structure Transaction where
  version : Nat
  chainId : Nat
  transactionType : TransactionType
  inputs : List TransactionInput
  outputs : List TransactionOutput
  fee : Nat
  signature : Signature
  memo : List UInt8
  payload : TransactionPayload
  deriving DecidableEq

namespace Transaction

def walletData (tx : Transaction) : Option WalletTransactionData :=
  match tx.payload with
  | .wallet d => some d
  | _ => none

def daoProposalData (tx : Transaction) : Option DaoProposalData :=
  match tx.payload with
  | .daoProposal d => some d
  | _ => none

def daoVoteData (tx : Transaction) : Option DaoVoteData :=
  match tx.payload with
  | .daoVote d => some d
  | _ => none

def daoExecutionData (tx : Transaction) : Option DaoExecutionData :=
  match tx.payload with
  | .daoExecution d => some d
  | _ => none

def tokenTransferData (tx : Transaction) : Option TokenTransferData :=
  match tx.payload with
  | .tokenTransfer d => some d
  | _ => none

def tokenMintData (tx : Transaction) : Option TokenMintData :=
  match tx.payload with
  | .tokenMint d => some d
  | _ => none

def treasuryAllocationData (tx : Transaction) : Option TreasuryAllocationData :=
  match tx.payload with
  | .treasuryAllocation d => some d
  | _ => none

def processPayrollData (tx : Transaction) : Option ProcessPayrollData :=
  match tx.payload with
  | .processPayroll d => some d
  | _ => none

def daoStakeData (tx : Transaction) : Option DaoStakeData :=
  match tx.payload with
  | .daoStake d => some d
  | _ => none

def daoUnstakeData (tx : Transaction) : Option DaoUnstakeData :=
  match tx.payload with
  | .daoUnstake d => some d
  | _ => none

end Transaction

/-! ## Blocks -/

structure BlockHeader where
  version : Nat
  previousHash : Hash
  dataHelixRoot : Hash
  timestamp : Nat
  height : Nat
  verificationHelixRoot : Hash
  stateRoot : Hash
  bftQuorumRoot : Hash
  blockHash : Hash
  deriving DecidableEq

structure Block where
  header : BlockHeader
  transactions : List Transaction
  deriving DecidableEq

/-! ## Errors -/

inductive StorageError
  | invalidBlockHeight (expected actual : Nat)
  | corruptedData (message : String)
  deriving DecidableEq

def StorageError.toString : StorageError → String
  | .invalidBlockHeight expected actual => s!"Invalid block height: expected {expected}, got {actual}"
  | .corruptedData message => s!"Corrupted data: {message}"

inductive TxApplyError
  | invalidType (message : String)
  | unsupportedType (type : TransactionType)
  | emptyInputs
  | emptyOutputs
  | duplicateInput (op : OutPoint)
  | insufficientFee (required paid : Nat)
  | utxoNotFound (op : OutPoint)
  | valueMismatch (inputs outputs fee : Nat)
  | insufficientInputs (available need : Nat)
  | overflow
  | zeroAmountOutput (index : Nat)
  | insufficientBalance (balance need : Nat) (token : TokenId)
  | invalidTokenAmount (message : String)
  | invalidNonce (expected actual : Nat)
  | missingField (message : String)
  | storage (message : String)
  | internal (message : String)
  /-- The code unwinds from a failed `expect`. The rollback guard drops the batch as for an error. -/
  | unwound (message : String)
  deriving DecidableEq

inductive BlockApplyError
  | heightMismatch (expected actual : Nat)
  | invalidPreviousHash (expected actual : Hash)
  | validationFailed (message : String)
  | txFailed (index : Nat) (reason : TxApplyError)
  | persistFailed (message : String)
  | storage (e : StorageError)
  | blockTooLarge (size max : Nat)
  deriving DecidableEq

end SovereignNetwork.Execution
