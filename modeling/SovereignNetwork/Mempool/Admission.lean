import SovereignNetwork.Execution.Types
import SovereignNetwork.Fees.ModelV2

/-!
# Mempool admission

`admit` and the bookkeeping of `MempoolState`. Counters are `u32`, byte counts and block heights are `u64`.
-/

namespace SovereignNetwork.Mempool

open Lib Fees
open Execution (Address)

/-! ## Data -/

/-- The defaults are those of `MempoolConfig::default`. The limits that counters are compared with fit their types. -/
structure MempoolConfig where
  maxMempoolBytes : Nat := 50 * 1024 * 1024
  maxTxCount : Nat := 50000
  maxPerSender : Nat := 100
  maxTxBytes : Nat := 100000
  maxWitnessBytes : Nat := 50000
  maxSignatures : Nat := 16
  maxInputs : Nat := 256
  maxOutputs : Nat := 256
  minFeeMultiplierBps : Nat := 10000
  maxPerSenderPerPeriod : Nat := 10
  rateLimitPeriodBlocks : Nat := 10
  maxTxCount_lt : maxTxCount < 2 ^ 32 := by decide
  maxPerSender_lt : maxPerSender < 2 ^ 32 := by decide
  maxPerSenderPerPeriod_lt : maxPerSenderPerPeriod < 2 ^ 32 := by decide

structure SenderState where
  pendingCount : Nat := 0
  totalBytes : Nat := 0
  periodCount : Nat := 0
  periodStartBlock : Nat := 0
  deriving DecidableEq

structure MempoolState where
  totalBytes : Nat := 0
  txCount : Nat := 0
  perSender : HashMap Address SenderState := ∅

/-- The size of a transaction is a `u32`. -/
structure AdmitTx where
  fee : Nat
  txBytes : Nat
  witnessBytes : Nat
  inputCount : Nat
  outputCount : Nat
  sigCount : Nat
  txKind : TxKind
  sigScheme : SigScheme
  sender : Address
  computeUnits : Nat
  stateReads : Nat
  stateWrites : Nat
  stateWriteBytes : Nat
  txBytes_lt : txBytes < 2 ^ 32 := by decide
  deriving DecidableEq

inductive AdmitErrorKind
  | insufficientFee (required provided : Nat)
  | txTooLarge (size max : Nat)
  | witnessTooLarge (size max : Nat)
  | tooManyInputs (count max : Nat)
  | tooManyOutputs (count max : Nat)
  | tooManySignatures (count max : Nat)
  | mempoolFull
  | mempoolBytesFull (prospectiveTotalBytes max : Nat)
  | senderLimitReached (sender : Address) (count max : Nat)
  | rateLimited (sender : Address) (periodCount max : Nat)
  deriving DecidableEq

inductive AdmitResult
  | accepted
  | rejected (kind : AdmitErrorKind)
  deriving DecidableEq

/-! ## State -/

def SenderState.periodEnd (s : SenderState) (periodBlocks : Nat) : Nat := wrapU64 (s.periodStartBlock + periodBlocks)

def SenderState.addTx (s : SenderState) (txBytes currentBlock periodBlocks : Nat) : SenderState where
  pendingCount := saturatingAddU32 s.pendingCount 1
  totalBytes := saturatingAddU64 s.totalBytes txBytes
  periodCount := if currentBlock ≥ s.periodEnd periodBlocks then 1 else saturatingAddU32 s.periodCount 1
  periodStartBlock := if currentBlock ≥ s.periodEnd periodBlocks then currentBlock else s.periodStartBlock

def SenderState.removeTx (s : SenderState) (txBytes : Nat) : SenderState :=
  { s with pendingCount := s.pendingCount - 1, totalBytes := s.totalBytes - txBytes }

namespace MempoolState

def new : MempoolState := {}

variable (state : MempoolState)

def getSender (address : Address) : Option SenderState := state.perSender.lookup address

def senderPendingCount (address : Address) : Nat := ((state.getSender address).map (·.pendingCount)).getD 0

def senderPeriodCount (address : Address) (currentBlock periodBlocks : Nat) : Nat :=
  ((state.getSender address).map fun s => if currentBlock < s.periodEnd periodBlocks then s.periodCount else 0).getD 0

def addTx (sender : Address) (txBytes currentBlock periodBlocks : Nat) : MempoolState where
  totalBytes := saturatingAddU64 state.totalBytes txBytes
  txCount := saturatingAddU32 state.txCount 1
  perSender := state.perSender.insert sender (((state.getSender sender).getD {}).addTx txBytes currentBlock periodBlocks)

/-- The entry of a sender without pending transactions is dropped, with the sender's period. -/
def removeTx (sender : Address) (txBytes : Nat) : MempoolState where
  totalBytes := state.totalBytes - txBytes
  txCount := state.txCount - 1
  perSender :=
    match state.getSender sender with
    | some s =>
      if (s.removeTx txBytes).pendingCount = 0 then state.perSender.erase sender
      else state.perSender.insert sender (s.removeTx txBytes)
    | none => state.perSender

def hasTxCapacity (maxCount : Nat) : Bool := state.txCount < maxCount

end MempoolState

/-! ## Admission -/

def MempoolConfig.effectiveMinFee (config : MempoolConfig) (computedFee : Nat) : Nat :=
  saturatingMulU128 computedFee config.minFeeMultiplierBps / 10000

def AdmitTx.feeInput (tx : AdmitTx) : FeeInput where
  kind := tx.txKind
  sigScheme := tx.sigScheme
  sigCount := tx.sigCount
  envelopeBytes := 100
  payloadBytes := tx.txBytes - tx.witnessBytes
  witnessBytes := tx.witnessBytes
  execUnits := tx.computeUnits
  stateReads := tx.stateReads
  stateWrites := tx.stateWrites
  stateWriteBytes := tx.stateWriteBytes
  zkVerifyUnits := tx.inputCount * 50

/-- `admit`. -/
def admitTransaction (tx : AdmitTx) (feeParams : FeeParams) (config : MempoolConfig) (state : MempoolState)
    (currentBlock : Nat) : AdmitResult :=
  let prospectiveBytes := saturatingAddU64 state.totalBytes tx.txBytes
  let effectiveWitnessCap := min config.maxWitnessBytes tx.txKind.witnessCap
  let senderCount := state.senderPendingCount tx.sender
  let periodCount := state.senderPeriodCount tx.sender currentBlock config.rateLimitPeriodBlocks
  let requiredFee := config.effectiveMinFee (computeFeeV2 tx.feeInput feeParams)
  if !state.hasTxCapacity config.maxTxCount then .rejected .mempoolFull
  else if prospectiveBytes > config.maxMempoolBytes then
    .rejected (.mempoolBytesFull prospectiveBytes config.maxMempoolBytes)
  else if tx.txBytes > config.maxTxBytes then .rejected (.txTooLarge tx.txBytes config.maxTxBytes)
  else if tx.witnessBytes > config.maxWitnessBytes then
    .rejected (.witnessTooLarge tx.witnessBytes config.maxWitnessBytes)
  else if tx.witnessBytes > effectiveWitnessCap then .rejected (.witnessTooLarge tx.witnessBytes effectiveWitnessCap)
  else if tx.inputCount > config.maxInputs then .rejected (.tooManyInputs tx.inputCount config.maxInputs)
  else if tx.outputCount > config.maxOutputs then .rejected (.tooManyOutputs tx.outputCount config.maxOutputs)
  else if tx.sigCount > config.maxSignatures then .rejected (.tooManySignatures tx.sigCount config.maxSignatures)
  else if senderCount ≥ config.maxPerSender then
    .rejected (.senderLimitReached tx.sender senderCount config.maxPerSender)
  else if periodCount ≥ config.maxPerSenderPerPeriod then
    .rejected (.rateLimited tx.sender periodCount config.maxPerSenderPerPeriod)
  else if tx.fee < requiredFee then .rejected (.insufficientFee requiredFee tx.fee)
  else .accepted

theorem ite_eq_accepted {c : Prop} [Decidable c] {kind : AdmitErrorKind} {r : AdmitResult} :
    (if c then .rejected kind else r) = .accepted ↔ ¬ c ∧ r = .accepted := by
  by_cases hc : c <;> simp [hc]

theorem room_of_accepted {tx : AdmitTx} {feeParams : FeeParams} {config : MempoolConfig} {state : MempoolState}
    {currentBlock : Nat} (h : admitTransaction tx feeParams config state currentBlock = .accepted) :
    state.txCount < config.maxTxCount ∧ saturatingAddU64 state.totalBytes tx.txBytes ≤ config.maxMempoolBytes ∧
      state.senderPendingCount tx.sender < config.maxPerSender ∧
      state.senderPeriodCount tx.sender currentBlock config.rateLimitPeriodBlocks < config.maxPerSenderPerPeriod := by
  simp only [admitTransaction, ite_eq_accepted] at h
  obtain ⟨hcount, hbytes, -, -, -, -, -, -, hsender, hperiod, -⟩ := h
  exact ⟨by simpa [MempoolState.hasTxCapacity] using hcount, by omega, by omega, by omega⟩

end SovereignNetwork.Mempool
