import SovereignNetwork.Execution.Store

/-!
# State mutation primitives

`StateMutator` and the applicators of `tx_apply.rs`, as programs over the store.
-/

namespace SovereignNetwork.Execution

open Lib

/-- A storage error inside a transaction becomes text. -/
def TxApplyError.ofStorage (e : StorageError) : TxApplyError := .storage e.toString

def checkedAdd (x y : Nat) : TxProg Nat :=
  match checkedAddU128 x y with
  | some z => pure z
  | none => .fail .overflow

def requireSome {α : Type} (e : TxApplyError) : Option α → TxProg α
  | some a => pure a
  | none => .fail e

namespace Mutator

variable (X : Externals)

/-! ## UTXOs -/

def spendUtxo (op : OutPoint) : TxProg Utxo := do
  let utxo ← Sled.getUtxo op
  let utxo ← requireSome (.utxoNotFound op) utxo
  Sled.deleteUtxo op
  if utxo.merkleLeaf.isSome then
    Sled.deleteUtxoMerkleLeaf X op
  return utxo

def createUtxo (op : OutPoint) (u : Utxo) : TxProg Unit := do
  Sled.putUtxo op u
  match u.merkleLeaf with
  | some leaf =>
    let _ ← (Sled.putUtxoMerkleLeaf X op leaf).mapError .ofStorage
    return ()
  | none => return ()

def outputUtxo (output : TransactionOutput) (amount blockHeight : Nat) : Utxo where
  amount := amount
  owner := output.recipient.keyId
  token := .NATIVE
  createdAtHeight := blockHeight
  script := none
  merkleLeaf := if output.merkleLeaf = 0 then none else some output.merkleLeaf

/-! ## Token balances -/

def debitToken (token : TokenId) (addr : Address) (amount : Nat) : TxProg Unit :=
  if amount = 0 then pure ()
  else do
    let current ← Sled.getTokenBalance token addr
    if current < amount then
      .fail (.insufficientBalance current amount token)
    Sled.setTokenBalance token addr (current - amount)

def creditToken (token : TokenId) (addr : Address) (amount : Nat) : TxProg Unit :=
  if amount = 0 then pure ()
  else do
    let current ← Sled.getTokenBalance token addr
    match checkedAddU128 current amount with
    | none => .fail (.invalidTokenAmount s!"Token balance overflow: {current} + {amount} exceeds u128::MAX")
    | some newBalance => Sled.setTokenBalance token addr newBalance

/-- What a transfer of `amount` burns of a deflationary token. The product wraps. -/
def burnOf (contract : Option TokenContract) (amount : Nat) : Nat :=
  match contract with
  | some contract =>
    if contract.isDeflationary && decide (contract.burnRate > 0) then wrapU128 (amount * contract.burnRate) / 10000
    else 0
  | none => 0

def transferToken (token : TokenId) (fromAddr toAddr : Address) (amount : Nat) : TxProg Unit := do
  let contract ← Sled.getTokenContract token
  let burn := burnOf contract amount
  if burn > 0 then
    debitToken token fromAddr amount
    creditToken token toAddr (amount - burn)
    let supply ← Sled.getTokenSupply token
    match supply with
    | some supply => Sled.putTokenSupply token (supply - burn)
    | none => return ()
  else
    debitToken token fromAddr amount
    creditToken token toAddr amount

/-! ## The token registry -/

def asciiUppercase (s : String) : String := s.map Char.toUpper

def tokenSymbolExistsCaseInsensitive (symbol : String) : TxProg Bool :=
  .exists? fun k v =>
    match Sled.contractOf? k v with
    | some contract => asciiUppercase contract.symbol = asciiUppercase symbol
    | none => false

/-! ## Applicators -/

structure TransferOutcome where
  inputsSpent : Nat
  outputsCreated : Nat
  totalValue : Nat
  fee : Nat

def duplicateInput (seen : List OutPoint) : List TransactionInput → Option OutPoint
  | [] => none
  | input :: inputs =>
    if input.outPoint ∈ seen then some input.outPoint else duplicateInput (input.outPoint :: seen) inputs

def rejectDuplicateInputs (inputs : List TransactionInput) : TxProg Unit :=
  match duplicateInput [] inputs with
  | some op => .fail (.duplicateInput op)
  | none => pure ()

def spendInputs : List TransactionInput → (totalInput : Nat) → TxProg Nat
  | [], totalInput => pure totalInput
  | input :: inputs, totalInput => do
    let utxo ← spendUtxo X input.outPoint
    let totalInput ← checkedAdd totalInput utxo.amount
    spendInputs inputs totalInput

/-- Creates the outputs from `index` on. The first output of all takes the remainder. -/
def createTransferOutputs (txHash : Hash) (blockHeight amountPerOutput remainder : Nat) :
    List TransactionOutput → (index totalOutput : Nat) → TxProg Nat
  | [], _, totalOutput => pure totalOutput
  | output :: outputs, index, totalOutput => do
    let amount ← if index = 0 then checkedAdd amountPerOutput remainder else pure amountPerOutput
    if amount = 0 then
      .fail (.zeroAmountOutput index)
    createUtxo X ⟨txHash, wrapU32 index⟩ (outputUtxo output amount blockHeight)
    let totalOutput ← checkedAdd totalOutput amount
    createTransferOutputs txHash blockHeight amountPerOutput remainder outputs (index + 1) totalOutput

def applyNativeTransfer (tx : Transaction) (txHash : Hash) (blockHeight : Nat) : TxProg TransferOutcome := do
  if tx.outputs.isEmpty then
    .fail .emptyOutputs
  rejectDuplicateInputs tx.inputs
  let totalInput ← spendInputs X tx.inputs 0
  let fee := tx.fee
  if totalInput < fee then
    .fail (.insufficientInputs totalInput fee)
  let available := totalInput - fee
  let outputCount := tx.outputs.length
  let amountPerOutput := available / outputCount
  let remainder := available % outputCount
  if amountPerOutput = 0 ∧ outputCount > 1 then
    .fail (.insufficientInputs available outputCount)
  let totalOutput ← createTransferOutputs X txHash blockHeight amountPerOutput remainder tx.outputs 0 0
  let reconstructed ← checkedAdd totalOutput fee
  if reconstructed ≠ totalInput then
    .fail (.valueMismatch totalInput totalOutput fee)
  return ⟨tx.inputs.length, tx.outputs.length, totalOutput, fee⟩

/-- The fee of a token transfer goes to the fee destination. The product with the rate wraps. -/
def applyTokenTransfer (token : TokenId) (fromAddr toAddr : Address) (amount feeBps : Nat) (feeDestination : Address) :
    TxProg Nat := do
  let feeAmount :=
    if feeBps > 0 ∧ feeDestination ≠ Address.ZERO then wrapU128 (amount * feeBps) / 10000 else 0
  let netAmount := amount - feeAmount
  debitToken token fromAddr amount
  creditToken token toAddr netAmount
  if feeAmount > 0 then
    creditToken token feeDestination feeAmount
  return feeAmount

def applyTokenMint (token : TokenId) (toAddr : Address) (amount : Nat) : TxProg Unit := creditToken token toAddr amount

structure CoinbaseOutcome where
  outputsCreated : Nat
  totalReward : Nat
  feesCollected : Nat
  feeSinkCredited : Bool

/-- Creates the outputs of a coinbase from `index` on. With fees to pay out, each output to the fee sink holds them.
The first reward output takes the remainder. -/
def createCoinbaseOutputs (txHash : Hash) (blockHeight fees amountPerOutput remainder : Nat) (feeSink : Address) :
    List TransactionOutput → (index rewardIndex totalOutput : Nat) → TxProg Nat
  | [], _, _, totalOutput => pure totalOutput
  | output :: outputs, index, rewardIndex, totalOutput => do
    let isFeeSink := output.recipient.keyId = feeSink ∧ fees > 0
    let amount :=
      if isFeeSink then fees
      else if rewardIndex = 0 then wrapU128 (amountPerOutput + remainder)
      else amountPerOutput
    let rewardIndex := if isFeeSink then rewardIndex else rewardIndex + 1
    createUtxo X ⟨txHash, wrapU32 index⟩ (outputUtxo output amount blockHeight)
    let totalOutput ← checkedAdd totalOutput amount
    createCoinbaseOutputs txHash blockHeight fees amountPerOutput remainder feeSink outputs (index + 1) rewardIndex
      totalOutput

def applyCoinbase (tx : Transaction) (txHash : Hash) (blockHeight blockReward feesCollected : Nat)
    (feeSinkAddress : Address) : TxProg CoinbaseOutcome := do
  if !tx.inputs.isEmpty then
    .fail (.invalidType "Coinbase transaction must have no inputs")
  if tx.outputs.isEmpty then
    .fail (.internal "Coinbase must have outputs")
  let expectedTotal ← checkedAdd blockReward feesCollected
  let feeSinkOutputFound := tx.outputs.any fun output => output.recipient.keyId = feeSinkAddress
  if feesCollected > 0 ∧ !feeSinkOutputFound then
    .fail (.missingField s!"Coinbase must include fee sink output for {feesCollected} collected fees")
  let rewardOutputCount := if feesCollected > 0 then tx.outputs.length - 1 else tx.outputs.length
  if rewardOutputCount > 0 ∧ blockReward < rewardOutputCount then
    .fail (.missingField (s!"Coinbase has {rewardOutputCount} reward outputs but block reward {blockReward} " ++
      "is insufficient to fund each output with a non-zero amount"))
  let amountPerRewardOutput := if rewardOutputCount > 0 then blockReward / rewardOutputCount else 0
  let rewardRemainder := if rewardOutputCount > 0 then blockReward % rewardOutputCount else 0
  let totalOutput ← createCoinbaseOutputs X txHash blockHeight feesCollected amountPerRewardOutput rewardRemainder
    feeSinkAddress tx.outputs 0 0 0
  if totalOutput ≠ expectedTotal then
    .fail (.valueMismatch expectedTotal totalOutput 0)
  return ⟨tx.outputs.length, blockReward, feesCollected, feeSinkOutputFound && decide (feesCollected > 0)⟩

end Mutator

end SovereignNetwork.Execution
