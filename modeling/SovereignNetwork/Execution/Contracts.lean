import SovereignNetwork.Execution.Mutator

/-!
# Contracts, governance and stakes

The executor's handlers of contract, DAO and treasury transactions.
-/

namespace SovereignNetwork.Execution

open Lib Mutator

variable (X : Externals)

def canonicalSovTokenId : TokenId := X.generateLibTokenId

def isCanonicalSovToken (tokenId : TokenId) : Bool := tokenId = 0 || decide (tokenId = X.generateLibTokenId)

def storageToken (tokenId : TokenId) : TokenId := if isCanonicalSovToken X tokenId then canonicalSovTokenId X else tokenId

def bytesOf (s : String) : List UInt8 := s.toUTF8.toList

def hashBytes (h : Hash) : List UInt8 := Bytes.asSlice h

/-! ## DAO governance -/

def proposalKey (proposalId : Hash) : List UInt8 := bytesOf "proposal:" ++ hashBytes proposalId

def proposalIndexKey (proposalId : Hash) : List UInt8 := bytesOf "proposal_index:" ++ hashBytes proposalId

def voteKey (proposalId : Hash) (voter : String) : List UInt8 :=
  bytesOf "vote:" ++ hashBytes proposalId ++ bytesOf ":" ++ bytesOf voter

def executionKey (proposalId : Hash) : List UInt8 := bytesOf "execution:" ++ hashBytes proposalId

def applyDaoProposal (tx : Transaction) : TxProg Unit := do
  let data ← requireSome (.invalidType "DaoProposal requires dao_proposal_data field") tx.daoProposalData
  let contractId := X.daoStateContractId
  let existing ← Sled.getContractStorage contractId (proposalKey data.proposalId)
  if existing.isSome then
    .fail (.invalidType "DaoProposal with this ID already exists")
  Sled.putContractStorage contractId (proposalKey data.proposalId) (X.serializeProposal data)
  Sled.putContractStorage contractId (proposalIndexKey data.proposalId) (hashBytes data.proposalId)

def applyDaoVote (tx : Transaction) (blockHeight : Nat) : TxProg Unit := do
  let data ← requireSome (.invalidType "DaoVote requires dao_vote_data field") tx.daoVoteData
  let contractId := X.daoStateContractId
  let raw ← Sled.getContractStorage contractId (proposalKey data.proposalId)
  let raw ← requireSome (.invalidType "DaoVote references unknown proposal") raw
  match X.deserializeProposal raw with
  | .error e => .fail (.internal s!"Failed to deserialize proposal for vote check: {e}")
  | .ok proposal =>
    let votingDeadline := saturatingAddU64 proposal.createdAtHeight proposal.votingPeriodBlocks
    if blockHeight > votingDeadline then
      let id := hexEncode (hashBytes data.proposalId)
      .fail (.invalidType (s!"DaoVote rejected: voting period for proposal '{id}' expired at height " ++
        s!"{votingDeadline} (current height: {blockHeight})"))
    Sled.putContractStorage contractId (voteKey data.proposalId data.voter) (X.serializeVote data)

def applyDaoExecution (tx : Transaction) : TxProg Unit := do
  let data ← requireSome (.invalidType "DaoExecution requires dao_execution_data field") tx.daoExecutionData
  let contractId := X.daoStateContractId
  let proposal ← Sled.getContractStorage contractId (proposalKey data.proposalId)
  if proposal.isNone then
    .fail (.invalidType "DaoExecution references unknown proposal")
  let executed ← Sled.getContractStorage contractId (executionKey data.proposalId)
  if executed.isSome then
    .fail (.invalidType "DaoExecution: proposal has already been executed")
  Sled.putContractStorage contractId (executionKey data.proposalId) (X.serializeExecution data)
  Sled.putContractStorage contractId (bytesOf "last_execution_proposal") (hashBytes data.proposalId)

/-! ## Contracts -/

def applyContractDeployment (tx : Transaction) (txHash : Hash) : TxProg Unit := do
  match X.decodeContractDeployment tx.memo with
  | .error e => .fail (.invalidType s!"ContractDeployment requires canonical deployment memo: {e}")
  | .ok payload =>
    let contractId := txHash
    Sled.putContractCode contractId payload.code
    Sled.putContractStorage contractId (bytesOf "__contract_type") (bytesOf payload.contractType)
    Sled.putContractStorage contractId (bytesOf "__abi") payload.abi
    Sled.putContractStorage contractId (bytesOf "__init_args") payload.initArgs
    Sled.putContractStorage contractId (bytesOf "__limits") (X.serializeLimits payload.gasLimit payload.memoryLimitBytes)

def decodeContractCallMemo (memo : List UInt8) : TxProg DecodedContractExecutionMemo :=
  match X.decodeContractExecution memo with
  | .error e => .fail (.invalidType s!"Invalid ContractExecution memo: {e}")
  | .ok decoded => pure decoded

def applyContractExecution (tx : Transaction) (txHash : Hash) (blockHeight : Nat) : TxProg Unit := do
  let decoded ← decodeContractCallMemo X tx.memo
  let contractId ← requireSome
    (.invalidType "ContractExecution memo must include deployed contract_id (ZHTP2 format)") decoded.contractId
  let id := hexEncode (hashBytes contractId)
  let code ← Sled.getContractCode contractId
  if code.isNone then
    .fail (.invalidType s!"ContractExecution references unknown deployed contract_id {id}")
  let abi ← Sled.getContractStorage contractId (bytesOf "__abi")
  if abi.isNone then
    .fail (.invalidType s!"ContractExecution target {id} missing deployed ABI metadata")
  let limits ← Sled.getContractStorage contractId (bytesOf "__limits")
  let limits ← requireSome (.invalidType s!"ContractExecution target {id} missing deployed execution limits") limits
  match X.deserializeLimits limits with
  | .error e => .fail (.invalidType s!"ContractExecution target {id} has invalid stored limits: {e}")
  | .ok _ =>
    let callKey := bytesOf "__call:" ++ hashBytes txHash
    let caller := tx.signature.publicKey.keyId
    Sled.putContractStorage contractId callKey (X.serializeCall blockHeight decoded.method caller decoded.params)
    Sled.putContractStorage contractId (bytesOf "__last_call_key") callKey

/-! ## Treasury and sector DAOs -/

def applyTreasuryAllocation (tx : Transaction) : TxProg Unit := do
  let data ← requireSome (.invalidType "TreasuryAllocation missing payload") tx.treasuryAllocationData
  transferToken (canonicalSovTokenId X) data.sourceTreasuryKeyId data.destinationKeyId data.amount

def daoHealthcareKeyId : Address := 0x9f8d4ccf10869f9a95b4d3e76834da4140aed7fe6af7e8aa3af0d7074c4ac86c

def daoEducationKeyId : Address := 0xe4611cc1a4ebf28ad119e0c415b4300f53dd97703ee6aa793847c40fceea1d5d

def daoEnergyKeyId : Address := 0xcb4fc86f2f0177f24be863874845ef3e4560dd89e981d1ff4fe07372ea693768

def daoHousingKeyId : Address := 0xccf0caad2c80e51c2e43ceab4a8b5d1d34d4914da57534697ba8003cea3a4ca2

def daoFoodKeyId : Address := 0x5ad4d36b1d3a1aa783c05f316d67309b2b60de4fb76324428237dd25c2f9ffb4

def knownDaos : List Address := [daoHealthcareKeyId, daoEducationKeyId, daoEnergyKeyId, daoHousingKeyId, daoFoodKeyId]

def welfareTokenForDao (dao : Address) : Option TokenId :=
  if dao = daoHealthcareKeyId then some (X.generateCustomTokenId "HealthToken" "HEAL")
  else if dao = daoEducationKeyId then some (X.generateCustomTokenId "EduToken" "EDU")
  else if dao = daoEnergyKeyId then some (X.generateCustomTokenId "EnergyToken" "ENRG")
  else if dao = daoHousingKeyId then some (X.generateCustomTokenId "HousingToken" "HOME")
  else if dao = daoFoodKeyId then some (X.generateCustomTokenId "FoodToken" "FOOD")
  else none

/-- The nonce of the payload is not compared with the stored one. -/
def applyDaoStake (tx : Transaction) (blockHeight : Nat) : TxProg Unit := do
  let data ← requireSome (.invalidType "DaoStake missing payload") tx.daoStakeData
  if data.staker ≠ tx.signature.publicKey.keyId then
    .fail (.invalidType "DaoStake staker must match transaction signer")
  if data.sectorDaoKeyId ∉ knownDaos then
    .fail (.invalidType "DaoStake target is not a known sector DAO")
  let sovToken := canonicalSovTokenId X
  transferToken sovToken data.staker data.sectorDaoKeyId data.amount
  let _ ← Sled.incrementTokenNonce sovToken data.staker
  let lockedUntil := saturatingAddU64 blockHeight data.lockBlocks
  Sled.putDaoStake ⟨data.staker, data.sectorDaoKeyId, data.amount, blockHeight, lockedUntil⟩
  match welfareTokenForDao X data.sectorDaoKeyId with
  | some welfareToken => creditToken welfareToken data.staker data.amount
  | none => return ()

/-- The first six bytes of a key, in hexadecimal. -/
def shortHex (keyId : Bytes 32) : String := hexEncode ((hashBytes keyId).take 6)

def applyDaoUnstake (tx : Transaction) (blockHeight : Nat) : TxProg Unit := do
  let data ← requireSome (.invalidType "DaoUnstake missing payload") tx.daoUnstakeData
  if data.staker ≠ tx.signature.publicKey.keyId then
    .fail (.invalidType "DaoUnstake staker must match transaction signer")
  let staker := shortHex data.staker
  let dao := shortHex data.sectorDaoKeyId
  let record ← Sled.getDaoStake data.sectorDaoKeyId data.staker
  let record ← requireSome
    (.invalidType s!"DaoUnstake: no stake record found for staker={staker} dao={dao}") record
  if blockHeight < record.lockedUntil then
    .fail (.invalidType
      s!"DaoUnstake: stake still locked until height {record.lockedUntil} (current {blockHeight})")
  let sovToken := canonicalSovTokenId X
  let expectedNonce ← Sled.getTokenNonce sovToken data.staker
  if data.nonce ≠ expectedNonce then
    .fail (.invalidType
      s!"DaoUnstake: invalid nonce for staker={staker} expected={expectedNonce} got={data.nonce}")
  transferToken sovToken data.sectorDaoKeyId data.staker record.amount
  match welfareTokenForDao X data.sectorDaoKeyId with
  | some welfareToken => debitToken welfareToken data.staker record.amount
  | none => pure ()
  Sled.deleteDaoStake data.sectorDaoKeyId data.staker
  let _ ← Sled.incrementTokenNonce sovToken data.staker
  return ()

end SovereignNetwork.Execution
