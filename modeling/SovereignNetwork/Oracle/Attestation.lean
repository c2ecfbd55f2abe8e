import Mathlib.Data.List.Sort
import SovereignNetwork.Oracle.State

/-!
# Attestations

Admission of a signed price and the count of the votes. Whether a signature verifies under a key is left to
`verifySignature`. A call on the state returns its result with the state it leaves.
-/

namespace SovereignNetwork.Oracle

open Lib

/-! ## Data -/

structure OraclePriceAttestation where
  epochId : Nat
  sovUsdPrice : Nat
  cbeUsdPrice : Option Nat
  timestamp : Nat
  validatorPubkey : KeyId
  signature : List UInt8
  deriving DecidableEq

inductive OracleAttestationValidationError
  | encodeError (message : String)
  | wrongEpoch (expected got : Nat)
  | nonCommitteeSigner (signer : KeyId)
  | duplicateSigner (signer : KeyId)
  | missingSignerPublicKey (signer : KeyId)
  | invalidSignature
  | deviationBand (attestedPrice medianPrice maxDeviationBps actualDeviationBps : Nat)
  deriving DecidableEq

inductive OracleAttestationAdmission
  | accepted
  | ignoredOutsideCurrentEpoch (currentEpoch attestedEpoch : Nat)
  | ignoredDuplicateSigner (signer : KeyId)
  | ignoredAfterFinalization (epochId price : Nat)
  | finalized (price : FinalizedOraclePrice)
  deriving DecidableEq

inductive OracleAttestationAdmissionError
  | validation (e : OracleAttestationValidationError)
  | conflictingSigner (signer : KeyId) (existingPrice attemptedPrice : Nat)
  | conflictingFinalizedPrice (epochId finalizedPrice attemptedPrice : Nat)
  deriving DecidableEq

/-- Verification of an attestation under a key: the encoding, the digest and the signature scheme. -/
abbrev VerifySignature := OraclePriceAttestation → List UInt8 → Except OracleAttestationValidationError Unit

/-- The signing key of a validator. -/
abbrev ResolvePubkey := KeyId → Option (List UInt8)

/-! ## Deviation from the median -/

def calculateMedian (values : List Nat) : Nat :=
  let sorted := values.insertionSort (· ≤ ·)
  let len := sorted.length
  if len = 0 then 0
  else if len % 2 = 1 then sorted.getD (len / 2) 0
  else
    let mid1 := sorted.getD (len / 2 - 1) 0
    let mid2 := sorted.getD (len / 2) 0
    mid1 / 2 + mid2 / 2 + (mid1 % 2 + mid2 % 2) / 2

namespace OracleState

def deviationBps (attestedPrice median : Nat) : Nat :=
  if median > 0 then
    let diff := if attestedPrice > median then attestedPrice - median else median - attestedPrice
    min (saturatingMulU128 diff 10000 / median) (2 ^ 32 - 1)
  else 0

def checkDeviationBand (s : OracleState) (attestation : OraclePriceAttestation) (epochState : OracleEpochState) :
    Except OracleAttestationAdmissionError Unit := do
  let median := calculateMedian epochState.signerPrices.values
  let deviation := deviationBps attestation.sovUsdPrice median
  if epochState.signerPrices.values ≠ [] ∧ deviation > s.config.maxDeviationBps then
    throw (.validation (.deviationBand attestation.sovUsdPrice median s.config.maxDeviationBps deviation))

/-! ## Admission -/

section

variable (verify : VerifySignature) (resolve : ResolvePubkey)

def validateAttestation (s : OracleState) (attestation : OraclePriceAttestation) (currentEpoch : Nat)
    (seenSigners : Finset KeyId) : Except OracleAttestationValidationError Unit := do
  if attestation.epochId ≠ currentEpoch then
    throw (.wrongEpoch currentEpoch attestation.epochId)
  if attestation.validatorPubkey ∉ s.committee.members then
    throw (.nonCommitteeSigner attestation.validatorPubkey)
  if attestation.validatorPubkey ∈ seenSigners then
    throw (.duplicateSigner attestation.validatorPubkey)
  let signingPubkey ← okOr (resolve attestation.validatorPubkey) (.missingSignerPublicKey attestation.validatorPubkey)
  verify attestation signingPubkey

def epochStateAt (s : OracleState) (epoch : Nat) : OracleEpochState := (s.epochState.lookup epoch).getD {}

/-- An epoch that has a price still takes votes on the CBE price, from attestations of that price. -/
def precheckFinalized (s : OracleState) (attestation : OraclePriceAttestation) (currentEpoch price : Nat) :
    Except OracleAttestationAdmissionError OracleAttestationAdmission := do
  if price ≠ attestation.sovUsdPrice then
    throw (.conflictingFinalizedPrice currentEpoch price attestation.sovUsdPrice)
  if attestation.cbeUsdPrice.isNone then
    return .ignoredAfterFinalization currentEpoch price
  let cbeSeenSigners := (s.epochStateAt currentEpoch).signerCbePrices.keys.toFinset
  (s.validateAttestation verify resolve attestation currentEpoch cbeSeenSigners).mapError .validation
  return .accepted

/-- A signer whose price is recorded. The signature is not looked at. -/
def precheckRecorded (s : OracleState) (attestation : OraclePriceAttestation) (currentEpoch existingPrice : Nat) :
    Except OracleAttestationAdmissionError OracleAttestationAdmission := do
  if existingPrice ≠ attestation.sovUsdPrice then
    throw (.conflictingSigner attestation.validatorPubkey existingPrice attestation.sovUsdPrice)
  if attestation.cbeUsdPrice.isNone ∨
      (s.epochStateAt currentEpoch).signerCbePrices.lookup attestation.validatorPubkey = attestation.cbeUsdPrice then
    return .ignoredDuplicateSigner attestation.validatorPubkey
  return .accepted

def precheckFresh (s : OracleState) (attestation : OraclePriceAttestation) (currentEpoch : Nat) :
    Except OracleAttestationAdmissionError OracleAttestationAdmission := do
  let seenSigners := (s.epochStateAt currentEpoch).signerPrices.keys.toFinset
  (s.validateAttestation verify resolve attestation currentEpoch seenSigners).mapError .validation
  -- without votes there is no deviation
  if s.protocolConfig.isStrictSpecActive then
    s.checkDeviationBand attestation (s.epochStateAt currentEpoch)
  return .accepted

def precheckAttestation (s : OracleState) (attestation : OraclePriceAttestation) (currentEpoch : Nat) :
    Except OracleAttestationAdmissionError OracleAttestationAdmission :=
  if attestation.epochId ≠ currentEpoch then
    .ok (.ignoredOutsideCurrentEpoch currentEpoch attestation.epochId)
  else
    match s.finalizedPrices.lookup currentEpoch with
    | some finalized => s.precheckFinalized verify resolve attestation currentEpoch finalized.sovUsdPrice
    | none =>
      if (s.epochStateAt currentEpoch).finalized then
        match (s.epochStateAt currentEpoch).winningPrice with
        | some winning => s.precheckFinalized verify resolve attestation currentEpoch winning
        | none => .ok (.ignoredAfterFinalization currentEpoch attestation.sovUsdPrice)
      else
        match (s.epochStateAt currentEpoch).signerPrices.lookup attestation.validatorPubkey with
        | some existingPrice => s.precheckRecorded attestation currentEpoch existingPrice
        | none => s.precheckFresh verify resolve attestation currentEpoch

end

end OracleState

/-! ## Counting -/

namespace OracleEpochState

def signersOf (e : OracleEpochState) (price : Nat) : Finset KeyId := (e.priceSigners.lookup price).getD ∅

def cbeSignersOf (e : OracleEpochState) (price : Nat) : Finset KeyId := (e.cbePriceSigners.lookup price).getD ∅

/-- The vote on the SOV price counts only while there is no price. -/
def recordSov (e : OracleEpochState) (attestation : OraclePriceAttestation) : OracleEpochState :=
  if e.finalized then e
  else { e with
    signerPrices := e.signerPrices.insert attestation.validatorPubkey attestation.sovUsdPrice
    priceSigners := e.priceSigners.insert attestation.sovUsdPrice
      (insert attestation.validatorPubkey (e.signersOf attestation.sovUsdPrice)) }

/-- Says whether the vote on the CBE price decides it. -/
def recordCbe (e : OracleEpochState) (attestation : OraclePriceAttestation) (threshold : Nat) :
    Bool × OracleEpochState :=
  match attestation.cbeUsdPrice with
  | none => (false, e)
  | some cbePrice =>
    let signers := insert attestation.validatorPubkey (e.cbeSignersOf cbePrice)
    let decides := e.winningCbePrice.isNone && threshold ≤ signers.card
    (decides, { e with
      signerCbePrices := e.signerCbePrices.insert attestation.validatorPubkey cbePrice
      cbePriceSigners := e.cbePriceSigners.insert cbePrice signers
      winningCbePrice := if decides then some cbePrice else e.winningCbePrice })

end OracleEpochState

namespace OracleState

def countAttestation (s : OracleState) (attestation : OraclePriceAttestation) (currentEpoch : Nat) :
    Except OracleAttestationAdmissionError OracleAttestationAdmission × OracleState :=
  let threshold := s.committee.threshold
  let (cbeFinalized, e) := ((s.epochStateAt currentEpoch).recordSov attestation).recordCbe attestation threshold
  if ¬ e.finalized ∧ threshold ≤ (e.signersOf attestation.sovUsdPrice).card then
    let finalized : FinalizedOraclePrice := ⟨currentEpoch, attestation.sovUsdPrice, e.winningCbePrice⟩
    let decided := { e with finalized := true, winningPrice := some attestation.sovUsdPrice }
    let s := { s with epochState := s.epochState.insert currentEpoch decided }
    match s.finalizedPrices.lookup currentEpoch with
    | some existing =>
      if existing.sovUsdPrice ≠ finalized.sovUsdPrice then
        (.error (.conflictingFinalizedPrice currentEpoch existing.sovUsdPrice finalized.sovUsdPrice), s)
      else (.ok (.finalized finalized), s)
    | none => (.ok (.finalized finalized), { s with finalizedPrices := s.finalizedPrices.insert currentEpoch finalized })
  else
    (.ok .accepted, { s with
      epochState := s.epochState.insert currentEpoch e
      finalizedPrices :=
        if e.finalized ∧ cbeFinalized then
          HashMap.modify currentEpoch
            (fun finalized => { finalized with cbeUsdPrice := e.winningCbePrice.or finalized.cbeUsdPrice })
            s.finalizedPrices
        else s.finalizedPrices })

def processAttestation (verify : VerifySignature) (resolve : ResolvePubkey) (s : OracleState)
    (attestation : OraclePriceAttestation) (currentEpoch : Nat) :
    Except OracleAttestationAdmissionError OracleAttestationAdmission × OracleState :=
  match s.precheckAttestation verify resolve attestation currentEpoch with
  | .error e => (.error e, s)
  | .ok .accepted => s.countAttestation attestation currentEpoch
  | .ok admission => (.ok admission, s)

end OracleState

end SovereignNetwork.Oracle
