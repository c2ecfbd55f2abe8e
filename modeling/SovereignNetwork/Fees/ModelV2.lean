import SovereignNetwork.Types

/-!
# Fee model v2

`compute_fee_v2` of `model_v2.rs`, all in 128-bit arithmetic that saturates.
-/

namespace SovereignNetwork.Fees

inductive TxKind
  | nativeTransfer
  | tokenTransfer
  | contractCall
  | dataUpload
  | governance
  | staking
  | unstaking
  | validatorRegistration
  | validatorExit
  deriving DecidableEq

inductive SigScheme
  | ed25519
  | dilithium5
  | hybrid
  deriving DecidableEq

structure FeeInput where
  kind : TxKind
  sigScheme : SigScheme
  sigCount : Nat
  envelopeBytes : Nat
  payloadBytes : Nat
  witnessBytes : Nat
  execUnits : Nat
  stateReads : Nat
  stateWrites : Nat
  stateWriteBytes : Nat
  zkVerifyUnits : Nat

/-- The defaults are those of `FeeParams::default`. -/
structure FeeParams where
  baseFeePerByte : Nat := 1
  feePerExecUnit : Nat := 10
  feePerStateRead : Nat := 100
  feePerStateWrite : Nat := 500
  feePerStateWriteByte : Nat := 10
  feePerSignature : Nat := 1000
  feePerZkVerifyUnit : Nat := 0
  minimumFee : Nat := 1000
  maximumFee : Nat := 1000000000

/-- Witness bytes beyond the cap are not charged, and not admitted either. -/
def TxKind.witnessCap : TxKind → Nat
  | .nativeTransfer => 1024
  | .tokenTransfer => 2048
  | .contractCall => 65536
  | .dataUpload => 131072
  | .governance => 4096
  | .staking => 2048
  | .unstaking => 2048
  | .validatorRegistration => 4096
  | .validatorExit => 2048

/-- In basis points. -/
def TxKind.baseMultiplierBps : TxKind → Nat
  | .nativeTransfer => 10000
  | .tokenTransfer => 12000
  | .contractCall => 15000
  | .dataUpload => 20000
  | .governance => 5000
  | .staking => 12000
  | .unstaking => 12000
  | .validatorRegistration => 13000
  | .validatorExit => 12000

/-- In basis points. -/
def SigScheme.sizeMultiplierBps : SigScheme → Nat
  | .ed25519 => 10000
  | .dilithium5 => 50000
  | .hybrid => 55000

def FeeInput.effectiveWitnessBytes (input : FeeInput) : Nat := min input.witnessBytes input.kind.witnessCap

/-- The fee in `u64`. The maximum is of that type, so the cast back loses nothing. -/
def computeFeeV2 (input : FeeInput) (params : FeeParams) : Nat :=
  let totalBytes := saturatingAddU128 (saturatingAddU128 input.envelopeBytes input.payloadBytes) input.effectiveWitnessBytes
  let byteFee := saturatingMulU128 totalBytes params.baseFeePerByte
  let execFee := saturatingMulU128 input.execUnits params.feePerExecUnit
  let stateReadFee := saturatingMulU128 input.stateReads params.feePerStateRead
  let stateWriteFee := saturatingMulU128 input.stateWrites params.feePerStateWrite
  let stateWriteByteFee := saturatingMulU128 input.stateWriteBytes params.feePerStateWriteByte
  let stateFee := saturatingAddU128 (saturatingAddU128 stateReadFee stateWriteFee) stateWriteByteFee
  let sigBaseFee := saturatingMulU128 input.sigCount params.feePerSignature
  let sigFee := saturatingMulU128 sigBaseFee input.sigScheme.sizeMultiplierBps / 10000
  let zkVerifyFee := saturatingMulU128 input.zkVerifyUnits params.feePerZkVerifyUnit
  let baseFee := saturatingAddU128 (saturatingAddU128 (saturatingAddU128 (saturatingAddU128 byteFee execFee) stateFee) sigFee)
    zkVerifyFee
  let adjustedFee := saturatingMulU128 baseFee input.kind.baseMultiplierBps / 10000
  min (max adjustedFee params.minimumFee) params.maximumFee

end SovereignNetwork.Fees
