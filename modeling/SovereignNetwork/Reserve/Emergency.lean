import SovereignNetwork.Execution.Bytes
import SovereignNetwork.Lib.Method

/-!
# The emergency reserve

Funds are credited by the fee collector and withdrawn with the signatures of a threshold of signers over a message that
names the contract, the recipient, the amount, the nonce and the expiry.
-/

namespace SovereignNetwork.Reserve

open Lib Execution

structure EmergencyReserve where
  authorizedFeeCollector : PublicKey
  signers : List PublicKey
  threshold : Nat
  totalReceived : Nat
  totalWithdrawn : Nat
  receivedByPeriod : HashMap Nat Nat
  lastPeriodId : Nat
  nextNonce : Nat
  contractId : Bytes 32

structure ReserveExternals where
  hashData : List UInt8 → Hash
  verifySignature : List UInt8 → List UInt8 → List UInt8 → Except String Bool

/-- The bytes that signatures are checked against are those of the Dilithium key. -/
def asBytes (key : PublicKey) : List UInt8 := key.dilithiumPk.asSlice

variable (X : ReserveExternals)

/-! ## The message -/

structure WithdrawalMessage where
  domain : String
  contractId : Bytes 32
  recipient : List UInt8
  amount : Nat
  nonce : Nat
  expiryPeriodId : Nat

namespace WithdrawalMessage

def encode (m : WithdrawalMessage) : List UInt8 :=
  toBeBytes 4 (bytesOf m.domain).length ++ bytesOf m.domain ++ m.contractId.asSlice ++ toBeBytes 4 m.recipient.length ++
    m.recipient ++ toBeBytes 8 m.amount ++ toBeBytes 8 m.nonce ++ toBeBytes 8 m.expiryPeriodId

def hash (m : WithdrawalMessage) : List UInt8 := hashBytes (X.hashData m.encode)

end WithdrawalMessage

namespace EmergencyReserve

/-! ## Initialization -/

/-- The number of signers is cut to eight bits before the threshold is compared with it. -/
def init (authorizedFeeCollector : PublicKey) (signers : List PublicKey) (threshold : Nat) (contractId : Bytes 32) :
    Except String EmergencyReserve := do
  if authorizedFeeCollector.dilithiumPk = 0 then
    throw "Authorized fee collector cannot be zero address"
  if signers = [] then
    throw "At least one signer required"
  match signers.findIdx? fun signer => signer.dilithiumPk = 0 with
  | some idx => throw s!"Signer {idx} cannot be zero address"
  | none =>
    if ¬ signers.Nodup then
      throw "Duplicate signer detected"
    let count := signers.length
    if threshold = 0 ∨ threshold > count % 256 then
      throw s!"Threshold must be between 1 and {count} (number of signers)"
    return {
      authorizedFeeCollector := authorizedFeeCollector
      signers := signers
      threshold := threshold
      totalReceived := 0
      totalWithdrawn := 0
      receivedByPeriod := ∅
      lastPeriodId := 0
      nextNonce := 1
      contractId := contractId }

/-! ## Crediting -/

def credit (caller : PublicKey) (amount periodId : Nat) : Method EmergencyReserve String Unit := do
  let r ← Method.get
  Method.check (caller = r.authorizedFeeCollector) "Only authorized fee collector can credit reserve"
  Method.check (amount ≠ 0) "Cannot credit zero amount"
  Method.check (r.totalReceived + amount < 2 ^ 64) "Credit would cause total_received to overflow"
  let last := r.lastPeriodId
  Method.check (r.lastPeriodId ≤ periodId) s!"Period moved backwards: {periodId} < {last}"
  Method.modify fun r =>
    { r with
      totalReceived := r.totalReceived + amount
      lastPeriodId := periodId
      receivedByPeriod :=
        r.receivedByPeriod.insert periodId (wrapU64 ((r.receivedByPeriod.lookup periodId).getD 0 + amount)) }

/-! ## Withdrawing -/

def message (r : EmergencyReserve) (recipient : PublicKey) (amount nonce expiryPeriodId : Nat) : WithdrawalMessage :=
  ⟨"SOV_EMERGENCY_RESERVE_WITHDRAW_V1", r.contractId, asBytes recipient, amount, nonce, expiryPeriodId⟩

def verifies (messageHash : List UInt8) (sig : Signature) (signer : PublicKey) : Bool :=
  match X.verifySignature messageHash sig.signature (asBytes signer) with
  | .ok true => true
  | .ok false => false
  | .error _ => false

/-- The first signer that verifies the signature joins the set. -/
def countSigner (messageHash : List UInt8) (signers valid : List PublicKey) (sig : Signature) : List PublicKey :=
  match signers.find? (verifies X messageHash sig) with
  | some signer => valid.insert signer
  | none => valid

def validSigners (messageHash : List UInt8) (signers : List PublicKey) (sigs : List Signature) : List PublicKey :=
  sigs.foldl (countSigner X messageHash signers) []

def balance (r : EmergencyReserve) : Option Nat := checkedSub r.totalReceived r.totalWithdrawn

def withdraw (recipient : PublicKey) (amount nonce expiryPeriodId currentPeriodId : Nat) (sigs : List Signature) :
    Method EmergencyReserve String Unit := do
  let r ← Method.get
  Method.check (recipient.dilithiumPk ≠ 0) "Recipient address cannot be zero"
  Method.check (amount ≠ 0) "Cannot withdraw zero amount"
  let received := r.totalReceived
  let withdrawn := r.totalWithdrawn
  let balance ← Method.okOr r.balance
    s!"CRITICAL: Balance corruption detected! total_received ({received}) < total_withdrawn ({withdrawn})"
  Method.check (amount ≤ balance) s!"Insufficient balance: {amount} > {balance}"
  let expected := r.nextNonce
  Method.check (nonce = r.nextNonce) s!"Nonce mismatch: expected {expected}, got {nonce}"
  Method.check (currentPeriodId ≤ expiryPeriodId)
    s!"Withdrawal expired: current_period {currentPeriodId} > expiry_period {expiryPeriodId}"
  let valid := validSigners X ((r.message recipient amount nonce expiryPeriodId).hash X) r.signers sigs
  let count := valid.length
  let threshold := r.threshold
  Method.check (r.threshold ≤ valid.length) s!"Insufficient valid signatures: {count} < {threshold} required"
  Method.modify fun r =>
    { r with
      totalWithdrawn := wrapU64 (r.totalWithdrawn + amount)
      nextNonce := wrapU64 (r.nextNonce + 1) }

end EmergencyReserve

end SovereignNetwork.Reserve
