import SovereignNetwork.Execution.Validation

/-!
# The block executor

`apply_block`: the header and resource checks, then for each transaction its validation and its writes, the coinbase
last, and the commit of the batch. An error drops the batch.
-/

namespace SovereignNetwork.Execution

open Lib Mutator

variable (X : Externals) (E : BlockExecutor)

/-! ## One transaction -/

inductive TxOutcome
  | transfer (outcome : TransferOutcome)
  | tokenTransfer
  | tokenMint
  | tokenCreation
  | contractDeployment
  | contractExecution
  | daoProposal
  | daoVote
  | daoExecution
  | bondingCurveDeploy
  | bondingCurveBuy
  | bondingCurveSell
  | bondingCurveGraduate
  | coinbase (outcome : CoinbaseOutcome)
  | treasuryAllocation
  | payrollMint
  | legacySystem

def syncCanonicalSovContractAfterMint (recipient : Address) (amount : Nat) : TxProg Unit := do
  let tokenId := canonicalSovTokenId X
  let contract ← Sled.getTokenContract tokenId
  let contract := contract.getD (.newSovNative X)
  let supply ← Sled.getTokenSupply tokenId
  let newSupply ← requireSome (.invalidType "SOV total supply overflow")
    (checkedAddU128 (supply.getD contract.totalSupply) amount)
  let balance ← Sled.getTokenBalance tokenId recipient
  let contract := { contract with totalSupply := newSupply }
  let contract := contract.setBalance (.ofKeyId recipient) (wrapU128 (balance + amount))
  Sled.putTokenSupply tokenId newSupply
  Sled.putTokenContract contract

def sovFeeRateBps : Nat := 100

def applyTokenTransferTx (tx : Transaction) : TxProg Unit := do
  let data ← requireSome (.invalidType "TokenTransfer requires token_transfer_data field") tx.tokenTransferData
  let token := storageToken X data.tokenId
  if data.amount = 0 then
    .fail (.invalidType "Token transfer amount must be greater than 0")
  let feeBps := if data.tokenId = X.deriveCbeTokenId then 0 else sovFeeRateBps
  let _ ← applyTokenTransfer token data.fromAddr data.toAddr data.amount feeBps E.feeSinkAddress
  let _ ← Sled.incrementTokenNonce token data.fromAddr
  return ()

def applyTokenMintTx (tx : Transaction) : TxProg Unit := do
  let data ← requireSome (.invalidType "TokenMint requires token_mint_data field") tx.tokenMintData
  if data.amount = 0 then
    .fail (.invalidType "TokenMint amount must be greater than 0")
  let token := storageToken X data.tokenId
  applyTokenMint token data.toAddr data.amount
  if token = canonicalSovTokenId X then
    syncCanonicalSovContractAfterMint X data.toAddr data.amount

def applyWalletRegistration (tx : Transaction) (blockHeight : Nat) : TxProg Unit := do
  let data ← requireSome (.invalidType "WalletRegistration requires wallet_data field") tx.walletData
  Sled.putWalletProjection data.walletId ⟨data, blockHeight⟩
  if data.initialBalance > 0 then
    applyTokenMint (canonicalSovTokenId X) data.walletId data.initialBalance
    syncCanonicalSovContractAfterMint X data.walletId data.initialBalance

def applyWalletUpdate (tx : Transaction) (blockHeight : Nat) : TxProg Unit := do
  let data ← requireSome (.invalidType "WalletUpdate requires wallet_data field") tx.walletData
  Sled.putWalletProjection data.walletId ⟨data, blockHeight⟩

/-- The contract that a token creation stores, with the supply already split. -/
def createdContract (payload : TokenCreationPayloadV1) (creator : PublicKey) : Except TxApplyError TokenContract := do
  let (creatorAllocation, treasuryAllocation) := payload.splitInitialSupply
  let token := TokenContract.newCustom X payload.name payload.symbol 0 creator
  let token := { token with
    decimals := if payload.decimals = 0 then 8 else payload.decimals
    maxSupply := payload.initialSupply }
  let token ← (token.mint creator creatorAllocation).mapError fun e =>
    .internal s!"TokenCreation mint failed: {e}"
  (token.mint (.ofKeyId payload.treasuryRecipient) treasuryAllocation).mapError fun e =>
    .internal s!"TokenCreation treasury mint failed: {e}"

def applyTokenCreation (tx : Transaction) : TxProg Unit := do
  match X.decodeTokenCreation tx.memo with
  | .error e => .fail (.invalidType s!"TokenCreation requires canonical memo payload: {e}")
  | .ok payload =>
    let (creatorAllocation, treasuryAllocation) := payload.splitInitialSupply
    let creator := tx.signature.publicKey
    if payload.treasuryRecipient = creator.keyId then
      .fail (.invalidType "TokenCreation treasury_recipient must differ from creator")
    let token ← .ofExcept (createdContract X payload creator)
    let existing ← Sled.getTokenContract token.tokenId
    if existing.isSome then
      .fail (.invalidType "TokenCreation for existing token_id is not allowed")
    let symbolTaken ← tokenSymbolExistsCaseInsensitive payload.symbol
    if symbolTaken then
      .fail (.invalidType
        s!"TokenCreation: symbol '{payload.symbol}' conflicts with an existing token (case-insensitive)")
    Sled.putTokenContract token
    applyTokenMint token.tokenId creator.keyId creatorAllocation
    applyTokenMint token.tokenId payload.treasuryRecipient treasuryAllocation

/-- `p`, then the outcome `o`. -/
def outcome (o : TxOutcome) (p : TxProg Unit) : TxProg TxOutcome := do
  p
  return o

def applyTransaction (tx : Transaction) (blockHeight : Nat) : TxProg TxOutcome :=
  let txHash := X.hashTransaction tx
  match tx.transactionType with
  | .transfer => do
    let o ← applyNativeTransfer X tx txHash blockHeight
    return .transfer o
  | .coinbase => do
    let o ← applyCoinbase X tx txHash blockHeight E.blockReward 0 E.feeSinkAddress
    return .coinbase o
  | .tokenTransfer => outcome .tokenTransfer (applyTokenTransferTx X E tx)
  | .tokenMint => outcome .tokenMint (applyTokenMintTx X tx)
  | .walletRegistration => outcome .legacySystem (applyWalletRegistration X tx blockHeight)
  | .walletUpdate => outcome .legacySystem (applyWalletUpdate tx blockHeight)
  | .tokenCreation => outcome .tokenCreation (applyTokenCreation X tx)
  | .contractDeployment => outcome .contractDeployment (applyContractDeployment X tx txHash)
  | .contractExecution => outcome .contractExecution (applyContractExecution X tx txHash blockHeight)
  | .processPayroll => outcome .payrollMint (applyPayrollMint X E tx blockHeight)
  | .daoStake => outcome .legacySystem (applyDaoStake X tx blockHeight)
  | .daoUnstake => outcome .legacySystem (applyDaoUnstake X tx blockHeight)
  | .bondingCurveDeploy => pure .bondingCurveDeploy
  | .bondingCurveGraduate => pure .bondingCurveGraduate
  | .bondingCurveBuy => outcome .bondingCurveBuy (applyBondingCurveBuy X E tx)
  | .bondingCurveSell => outcome .bondingCurveSell (applyBondingCurveSell X E tx)
  | .daoProposal => outcome .daoProposal (applyDaoProposal X tx)
  | .daoVote => outcome .daoVote (applyDaoVote X tx blockHeight)
  | .daoExecution => outcome .daoExecution (applyDaoExecution X tx)
  | .treasuryAllocation => outcome .treasuryAllocation (applyTreasuryAllocation X tx)
  | .identityRegistration | .identityUpdate | .identityRevocation | .validatorRegistration | .validatorUpdate
  | .validatorUnregister | .sessionCreation | .sessionTermination | .contentUpload | .ubiDistribution
  | .difficultyUpdate | .ubiClaim | .profitDeclaration | .governanceConfigUpdate | .updateOracleCommittee
  | .updateOracleConfig | .initCbeToken | .createEmploymentContract | .nftCreateCollection | .nftMint | .nftTransfer
  | .nftBurn | .oracleAttestation | .recordOnRampTrade | .gatewayRegistration | .gatewayUpdate
  | .gatewayUnregister => pure .legacySystem
  | .tokenSwap | .createPool | .addLiquidity | .removeLiquidity | .cancelOracleUpdate | .initEntityRegistry
  | .domainRegistration | .domainUpdate => .fail (.unsupportedType tx.transactionType)

def applyTx (tx : Transaction) (blockHeight : Nat) : TxProg TxOutcome :=
  if tx.transactionType = .coinbase then .fail (.invalidType "Coinbase should not be processed in apply_tx pass")
  else applyTransaction X E tx blockHeight

def applyCoinbaseWithFees (tx : Transaction) (blockHeight feesCollected : Nat) : TxProg CoinbaseOutcome :=
  if tx.transactionType ≠ .coinbase then .fail (.invalidType "Expected coinbase transaction")
  else applyCoinbase X tx (X.hashTransaction tx) blockHeight E.blockReward feesCollected E.feeSinkAddress

/-! ## A block -/

abbrev BlockProg := Prog Key.Val BlockApplyError

structure StateChangesSummary where
  utxosCreated : Nat := 0
  utxosSpent : Nat := 0
  balanceChanges : Nat := 0
  accountUpdates : Nat := 0

structure ApplyOutcome where
  height : Nat
  blockHash : Hash
  txCount : Nat
  stateChanges : StateChangesSummary
  feesCollected : Nat

/-- What the loop over the transactions carries along. -/
structure BlockTotals where
  accumulator : BlockAccumulator := {}
  summary : StateChangesSummary := {}
  totalFees : Nat := 0

def TxOutcome.fee : TxOutcome → Nat
  | .transfer o => o.fee
  | _ => 0

def StateChangesSummary.record (s : StateChangesSummary) : TxOutcome → StateChangesSummary
  | .transfer o => { s with utxosSpent := s.utxosSpent + o.inputsSpent, utxosCreated := s.utxosCreated + o.outputsCreated }
  | .tokenTransfer | .tokenCreation | .bondingCurveBuy | .bondingCurveSell | .treasuryAllocation | .payrollMint =>
    { s with balanceChanges := s.balanceChanges + 2 }
  | .tokenMint | .contractDeployment | .contractExecution => { s with balanceChanges := s.balanceChanges + 1 }
  | .daoProposal | .daoVote | .daoExecution => { s with accountUpdates := s.accountUpdates + 1 }
  | .bondingCurveDeploy | .bondingCurveGraduate | .legacySystem => s
  -- `apply_tx` never returns this one.
  | .coinbase _ => s

/-- The transactions other than the coinbase, from `index` on. -/
def applyTxs (blockHeight : Nat) : List Transaction → (index : Nat) → BlockTotals → BlockProg BlockTotals
  | [], _, totals => pure totals
  | tx :: txs, index, totals => do
    let accumulator ← .ofExcept (totals.accumulator.addTx E.limits tx.calculateResources)
    (validateTxStateless X E tx).mapError (.txFailed index)
    (validateTxStateful X tx).mapError (.txFailed index)
    let o ← (applyTx X E tx blockHeight).mapError (.txFailed index)
    applyTxs blockHeight txs (index + 1)
      { accumulator := accumulator
        summary := totals.summary.record o
        totalFees := wrapU128 (totals.totalFees + o.fee) }

def applyCoinbaseTx (blockHeight : Nat) (coinbase : Transaction) (totals : BlockTotals) : BlockProg BlockTotals := do
  let accumulator ← .ofExcept (totals.accumulator.addTx E.limits coinbase.calculateResources)
  (validateTxStateless X E coinbase).mapError (.txFailed 0)
  let o ← (applyCoinbaseWithFees X E coinbase blockHeight totals.totalFees).mapError (.txFailed 0)
  return { totals with
    accumulator := accumulator
    summary := { totals.summary with utxosCreated := totals.summary.utxosCreated + o.outputsCreated } }

def coinbaseCount (block : Block) : Nat :=
  (block.transactions.filter fun tx => tx.transactionType = .coinbase).length

def checkCoinbasePosition (block : Block) : Except BlockApplyError Unit := do
  if coinbaseCount block > 1 then
    throw (.validationFailed "Block must have at most one coinbase transaction")
  if coinbaseCount block = 1 then
    if (block.transactions.head?.map fun tx => decide (tx.transactionType ≠ .coinbase)).getD true then
      throw (.validationFailed "Coinbase transaction must be first in block")

/-- `append_block`, and the latest height that `commit_block` writes after everything else. -/
def finishBlock (block : Block) : BlockProg Unit := do
  Sled.appendBlock block
  Sled.putKey .latestHeight block.header.height

/-- A genesis block is recorded without its transactions: the treasury's CBE and the curve's initial state. -/
def applyGenesis : BlockProg BlockTotals := do
  Sled.putCbeEconomicState { BondingCurveEconomicState.default with genesisTreasuryAllocation := genesisTreasuryAllocation }
  let current ← Sled.getTokenBalance X.deriveCbeTokenId E.feeSinkAddress
  Sled.setTokenBalance X.deriveCbeTokenId E.feeSinkAddress (saturatingAddU128 current genesisTreasuryAllocation)
  return {}

def coinbaseTx (block : Block) : Option Transaction :=
  if coinbaseCount block = 1 then block.transactions.head? else none

def nonCoinbaseStart (block : Block) : Nat := if coinbaseCount block = 1 then 1 else 0

/-- Step 4: the other transactions first, for the fees that the coinbase pays out. -/
def applyTransactions (block : Block) : BlockProg BlockTotals := do
  let start := nonCoinbaseStart block
  let totals ← applyTxs X E block.header.height (block.transactions.drop start) start {}
  match coinbaseTx block with
  | some coinbase => applyCoinbaseTx X E block.header.height coinbase totals
  | none => return totals

def applyContents (block : Block) : BlockProg BlockTotals :=
  if block.header.height = 0 then applyGenesis X E else applyTransactions X E block

def applyBlockInner (block : Block) : BlockProg ApplyOutcome := do
  .ofExcept (checkCoinbasePosition block)
  let totals ← applyContents X E block
  finishBlock block
  return {
    height := block.header.height
    blockHash := block.header.blockHash
    txCount := block.transactions.length
    stateChanges := totals.summary
    feesCollected := totals.totalFees }

def validatePreviousHash (block : Block) : BlockProg Unit := do
  let prevHeight := block.header.height - 1
  let expected ← (Sled.getBlockHashByHeight prevHeight).mapError .storage
  match expected with
  | none => .fail (.validationFailed s!"Previous block at height {prevHeight} not found")
  | some expected =>
    if expected ≠ block.header.previousHash then
      .fail (.invalidPreviousHash expected block.header.previousHash)

def validateHeader (block : Block) : BlockProg Unit := do
  let latest ← Sled.latestHeight
  let expectedHeight := match latest with
    | some h => wrapU64 (h + 1)
    | none => 0
  if block.header.height ≠ expectedHeight then
    .fail (.heightMismatch expectedHeight block.header.height)
  if block.header.height > 0 ∧ !E.skipPrevHashValidation then
    validatePreviousHash block

def validateBlockResources (block : Block) : Except BlockApplyError Unit := do
  let size := X.blockSize block
  if size > E.limits.maxPayloadBytes then
    throw (.blockTooLarge size E.limits.maxPayloadBytes)
  let txCount := wrapU32 block.transactions.length
  if txCount > E.limits.maxTxCount then
    throw (.validationFailed s!"Block has {txCount} transactions, max is {E.limits.maxTxCount}")

/-- The height check of `begin_block` repeats that of the header. -/
def applyBlock (s : SledStore) (block : Block) : Except BlockApplyError (ApplyOutcome × SledStore) := do
  let _ ← (validateHeader E block).stage sledView s.trees ∅
  validateBlockResources X E block
  let (o, batch) ← (applyBlockInner X E block).stage sledView s.trees ∅
  return (o, s.commitBlock batch)

end SovereignNetwork.Execution
