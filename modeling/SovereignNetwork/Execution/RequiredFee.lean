import SovereignNetwork.Execution.Sequential
import SovereignNetwork.Fees.ModelV2
import Mathlib.Tactic.GCongr
import Mathlib.Order.Lattice
import Mathlib.Algebra.Order.Ring.Nat

/-!
# The fee a transaction has to pay

`tx_to_fee_input` counts what a transaction uses, in the narrow types of the fee model's input.
-/

namespace SovereignNetwork.Execution

open Fees

def TransactionType.feeKind : TransactionType → TxKind
  | .transfer => .nativeTransfer
  | .tokenTransfer => .tokenTransfer
  | .coinbase => .nativeTransfer
  | .identityRegistration | .identityUpdate | .identityRevocation => .governance
  | .validatorRegistration | .validatorUpdate | .gatewayRegistration | .gatewayUpdate | .gatewayUnregister
  | .daoProposal | .daoVote | .daoExecution | .governanceConfigUpdate => .governance
  | .ubiDistribution => .nativeTransfer
  | .contractDeployment | .contractExecution => .contractCall
  | .contentUpload => .dataUpload
  | _ => .nativeTransfer

def signatureSize : SigScheme → Nat
  | .ed25519 => 64
  | .dilithium5 => 4627
  | .hybrid => 4691

def wrapU8 (x : Nat) : Nat := x % 2 ^ 8

def txToFeeInput (tx : Transaction) : FeeInput where
  kind := tx.transactionType.feeKind
  sigScheme := .dilithium5
  sigCount := wrapU8 (max tx.inputs.length 1)
  envelopeBytes := 100
  payloadBytes := wrapU32 tx.memo.length
  witnessBytes := wrapU32 (wrapU32 tx.inputs.length * signatureSize .dilithium5)
  execUnits := 0
  stateReads := wrapU32 (tx.inputs.length + tx.outputs.length)
  stateWrites := wrapU32 tx.outputs.length
  stateWriteBytes := wrapU32 (tx.outputs.length * 64)
  zkVerifyUnits := min (wrapU32 tx.inputs.length * 50) (2 ^ 32 - 1)

/-- The executor with the fee model's own fee. -/
def Externals.withFeeParams (X : Externals) (params : FeeParams) : Externals :=
  { X with calculateMinFee := fun tx => computeFeeV2 (txToFeeInput tx) params }

/-! ## The fee grows with its input -/

/-- An input of the same kind that counts no more. -/
structure AtMost (input input' : FeeInput) : Prop where
  kind : input.kind = input'.kind
  sigScheme : input.sigScheme = input'.sigScheme
  sigCount : input.sigCount ≤ input'.sigCount
  bytes : input.envelopeBytes + input.payloadBytes + input.effectiveWitnessBytes ≤
    input'.envelopeBytes + input'.payloadBytes + input'.effectiveWitnessBytes
  execUnits : input.execUnits ≤ input'.execUnits
  stateReads : input.stateReads ≤ input'.stateReads
  stateWrites : input.stateWrites ≤ input'.stateWrites
  stateWriteBytes : input.stateWriteBytes ≤ input'.stateWriteBytes
  zkVerifyUnits : input.zkVerifyUnits ≤ input'.zkVerifyUnits

section

variable {x x' y y' : Nat}

@[gcongr] theorem saturatingAddU128_le (hx : x ≤ x') (hy : y ≤ y') : saturatingAddU128 x y ≤ saturatingAddU128 x' y' :=
  min_le_min_right _ (Nat.add_le_add hx hy)

@[gcongr] theorem saturatingMulU128_le (hx : x ≤ x') (hy : y ≤ y') : saturatingMulU128 x y ≤ saturatingMulU128 x' y' :=
  min_le_min_right _ (Nat.mul_le_mul hx hy)

end

theorem AtMost.computeFeeV2_le {input input' : FeeInput} (h : AtMost input input') (params : FeeParams) :
    computeFeeV2 input params ≤ computeFeeV2 input' params := by
  obtain ⟨hkind, hscheme, hsigs, hbytes, hexec, hreads, hwrites, hwriteBytes, hzk⟩ := h
  have htotal : saturatingAddU128 (saturatingAddU128 input.envelopeBytes input.payloadBytes) input.effectiveWitnessBytes ≤
      saturatingAddU128 (saturatingAddU128 input'.envelopeBytes input'.payloadBytes) input'.effectiveWitnessBytes := by
    simp only [saturatingAddU128]
    omega
  simp only [computeFeeV2, hkind, hscheme]
  gcongr

/-! ## The input grows with the transaction -/

/-- Inputs, outputs and bytes of the memo are appended. -/
structure Grown (tx tx' : Transaction) : Prop where
  type : tx.transactionType = tx'.transactionType
  inputs : tx.inputs <+: tx'.inputs
  outputs : tx.outputs <+: tx'.outputs
  memo : tx.memo <+: tx'.memo

variable {tx tx' : Transaction}

/-- The bytes of the memo and those of the signatures that are charged, of which a `u32` counts the latter. -/
def chargedBytes (tx : Transaction) : Nat :=
  tx.memo.length + min (tx.inputs.length * 4627 % 2 ^ 32) tx.transactionType.feeKind.witnessCap

/-- The signatures do not fall as a byte, nor the charged bytes. -/
structure CountsKept (tx tx' : Transaction) : Prop where
  signatures : max tx.inputs.length 1 % 2 ^ 8 ≤ max tx'.inputs.length 1 % 2 ^ 8
  bytes : chargedBytes tx ≤ chargedBytes tx'

/-- The counts of outputs and of bytes of the memo fit their types. -/
structure Small (tx : Transaction) : Prop where
  inputs : tx.inputs.length < 2 ^ 20
  outputs : tx.outputs.length < 2 ^ 20
  memo : tx.memo.length < 2 ^ 32

theorem Small.bytes_eq (h : Small tx) :
    (txToFeeInput tx).envelopeBytes + (txToFeeInput tx).payloadBytes + (txToFeeInput tx).effectiveWitnessBytes =
      100 + chargedBytes tx := by
  have hinputs : tx.inputs.length < 2 ^ 32 := h.inputs.trans (by decide)
  simp only [txToFeeInput, FeeInput.effectiveWitnessBytes, chargedBytes, signatureSize, wrapU32,
    Nat.mod_eq_of_lt h.memo, Nat.mod_eq_of_lt hinputs, Nat.add_assoc]

theorem baseMultiplierBps_bounds (kind : TxKind) : 0 < kind.baseMultiplierBps ∧ kind.baseMultiplierBps ≤ 20000 := by
  cases kind <;> decide

theorem mod_le_mod_of_lt {x y n : Nat} (h : x ≤ y) (hy : y < n) : x % n ≤ y % n := by
  rw [Nat.mod_eq_of_lt hy]
  exact (Nat.mod_le x n).trans h

theorem Grown.small (h : Grown tx tx') (hsmall : Small tx') : Small tx where
  inputs := h.inputs.length_le.trans_lt hsmall.inputs
  outputs := h.outputs.length_le.trans_lt hsmall.outputs
  memo := h.memo.length_le.trans_lt hsmall.memo

theorem Grown.atMost (h : Grown tx tx') (hsmall : Small tx') (hkept : CountsKept tx tx') :
    AtMost (txToFeeInput tx) (txToFeeInput tx') := by
  have hin := h.inputs.length_le
  have hout := h.outputs.length_le
  have hinputs := hsmall.inputs
  have houtputs := hsmall.outputs
  have hcount : wrapU32 tx.inputs.length ≤ wrapU32 tx'.inputs.length := mod_le_mod_of_lt hin (by omega)
  exact {
    kind := congrArg TransactionType.feeKind h.type
    sigScheme := rfl
    sigCount := hkept.signatures
    bytes := by
      rw [(h.small hsmall).bytes_eq, hsmall.bytes_eq]
      exact Nat.add_le_add_left hkept.bytes 100
    execUnits := le_rfl
    stateReads := mod_le_mod_of_lt (Nat.add_le_add hin hout) (by omega)
    stateWrites := mod_le_mod_of_lt hout (by omega)
    stateWriteBytes := mod_le_mod_of_lt (Nat.mul_le_mul_right _ hout) (by omega)
    zkVerifyUnits := min_le_min_right _ (Nat.mul_le_mul_right _ hcount) }

theorem Grown.checkMinFee {X : Externals} (h : Grown tx tx') (hfee : tx.fee = tx'.fee)
    (hrequired : X.calculateMinFee tx ≤ X.calculateMinFee tx') (haccepted : checkMinFee X tx' = .ok ()) :
    checkMinFee X tx = .ok () := by
  have hin := h.inputs.length_le
  simp only [Execution.checkMinFee, List.isEmpty_iff_length_eq_zero] at haccepted ⊢
  split at haccepted
  · next hempty => rw [if_pos (by omega)]
  split at haccepted
  · cases haccepted
  · next hpaid => rw [if_neg (c := _ < _) (by omega), ite_self]

theorem Grown.validateTxFee {X : Externals} {E : BlockExecutor} (h : Grown tx tx') (hfee : tx.fee = tx'.fee)
    (hrequired : X.calculateMinFee tx ≤ X.calculateMinFee tx') (haccepted : validateTxFee X E tx' = .ok ()) :
    validateTxFee X E tx = .ok () := by
  rw [Execution.validateTxFee] at haccepted ⊢
  rw [h.type, hfee]
  cases hskip : E.skipFeeValidation with
  | true => rfl
  | false =>
    rw [hskip] at haccepted
    cases htype : tx'.transactionType <;> simp only [htype] at haccepted ⊢
    all_goals first | exact haccepted | exact h.checkMinFee hfee hrequired haccepted

/-! ## Fees that show one count -/

/-- Signatures alone are charged. -/
def signatureParams : FeeParams := ⟨0, 0, 0, 0, 0, 10000, 0, 0, 2 ^ 64 - 1⟩

/-- Bytes alone are charged. -/
def byteParams : FeeParams := ⟨10000, 0, 0, 0, 0, 0, 0, 0, 2 ^ 64 - 1⟩

theorem unclamped_fee {x multiplier : Nat} (hx : x < 2 ^ 34) (hmultiplier : multiplier ≤ 20000) :
    min (max (min (x * 10000 * multiplier) u128Max / 10000) 0) (2 ^ 64 - 1) = x * multiplier := by
  have hle : x * multiplier ≤ 2 ^ 34 * 20000 := Nat.mul_le_mul hx.le hmultiplier
  rw [Nat.mul_right_comm]
  generalize x * multiplier = product at *
  simp only [u128Max]
  omega

theorem computeFeeV2_signatureParams (tx : Transaction) : computeFeeV2 (txToFeeInput tx) signatureParams =
    max tx.inputs.length 1 % 2 ^ 8 * 5 * tx.transactionType.feeKind.baseMultiplierBps := by
  have hcount : wrapU8 (max tx.inputs.length 1) < 2 ^ 8 := Nat.mod_lt _ (by decide)
  have hsigFee : min (min (wrapU8 (max tx.inputs.length 1) * 10000) u128Max * 50000) u128Max / 10000 =
      wrapU8 (max tx.inputs.length 1) * 5 * 10000 := by
    simp only [u128Max]
    omega
  have hbase : min (wrapU8 (max tx.inputs.length 1) * 5 * 10000) u128Max =
      wrapU8 (max tx.inputs.length 1) * 5 * 10000 := by
    simp only [u128Max]
    omega
  rw [← wrapU8, ← unclamped_fee (by omega) (baseMultiplierBps_bounds _).2]
  simp only [computeFeeV2, txToFeeInput, signatureParams, saturatingMulU128, saturatingAddU128,
    SigScheme.sizeMultiplierBps, Nat.mul_zero, Nat.zero_min, Nat.add_zero, Nat.zero_add, hsigFee, hbase]

theorem Small.computeFeeV2_byteParams (h : Small tx) : computeFeeV2 (txToFeeInput tx) byteParams =
    (100 + chargedBytes tx) * tx.transactionType.feeKind.baseMultiplierBps := by
  have hbytes := h.bytes_eq
  have hmemo := h.memo
  have hcharged : chargedBytes tx < 2 ^ 33 := by
    have hmod := Nat.mod_lt (tx.inputs.length * 4627) (show 2 ^ 32 > 0 by decide)
    rw [chargedBytes]
    omega
  have htotal : min (min ((txToFeeInput tx).envelopeBytes + (txToFeeInput tx).payloadBytes) u128Max +
      (txToFeeInput tx).effectiveWitnessBytes) u128Max = 100 + chargedBytes tx := by
    simp only [u128Max]
    omega
  have hbase : min ((100 + chargedBytes tx) * 10000) u128Max = (100 + chargedBytes tx) * 10000 := by
    simp only [u128Max]
    omega
  rw [← unclamped_fee (by omega) (baseMultiplierBps_bounds _).2]
  simp only [computeFeeV2, byteParams, saturatingMulU128, saturatingAddU128, Nat.mul_zero, Nat.zero_mul,
    Nat.zero_min, Nat.add_zero, Nat.zero_div, htotal, hbase]
  rfl

/-- Appending to a transaction lowers its required fee for no parameters just if it lowers neither the count of signatures,
which is a byte, nor the charged bytes. Then the executor takes the smaller transaction where it takes the larger. -/
theorem required_fee_grows (h : Grown tx tx') (hsmall : Small tx') :
    ((∀ params : FeeParams, params.minimumFee ≤ params.maximumFee →
        computeFeeV2 (txToFeeInput tx) params ≤ computeFeeV2 (txToFeeInput tx') params) ↔ CountsKept tx tx') ∧
      (CountsKept tx tx' → ∀ (X : Externals) (E : BlockExecutor) (params : FeeParams), tx.fee = tx'.fee →
        validateTxFee (X.withFeeParams params) E tx' = .ok () →
        validateTxFee (X.withFeeParams params) E tx = .ok ()) := by
  have hle (hkept : CountsKept tx tx') := (h.atMost hsmall hkept).computeFeeV2_le
  refine ⟨⟨fun hgrows => ⟨?_, ?_⟩, fun hkept params _ => hle hkept params⟩, fun hkept X E params hfee haccepted =>
    h.validateTxFee hfee (hle hkept params) haccepted⟩
  · have hfee := hgrows signatureParams (by decide)
    rw [computeFeeV2_signatureParams, computeFeeV2_signatureParams, h.type] at hfee
    exact Nat.le_of_mul_le_mul_right (Nat.le_of_mul_le_mul_right hfee (baseMultiplierBps_bounds _).1) (by decide)
  · have hfee := hgrows byteParams (by decide)
    rw [(h.small hsmall).computeFeeV2_byteParams, hsmall.computeFeeV2_byteParams, h.type] at hfee
    exact Nat.le_of_add_le_add_left (Nat.le_of_mul_le_mul_right hfee (baseMultiplierBps_bounds _).1)

def spendingTx (inputs fee : Nat) : Transaction :=
  let proof : ZkProof := ⟨[], [], [], none⟩
  { tokenTx .transfer .none with inputs := List.replicate inputs ⟨0, 0, 0, ⟨proof, proof, proof⟩⟩, fee := fee }

theorem grown_spendingTx {n m : Nat} (h : n ≤ m) (fee : Nat) : Grown (spendingTx n fee) (spendingTx m fee) where
  type := rfl
  inputs := List.prefix_replicate_iff.mpr ⟨by simpa [spendingTx] using h, by simp [spendingTx]⟩
  outputs := List.prefix_rfl
  memo := List.prefix_rfl

theorem fee_grows_with_second_input :
    computeFeeV2 (txToFeeInput (spendingTx 1 0)) {} ≤ computeFeeV2 (txToFeeInput (spendingTx 2 0)) {} ∧
      computeFeeV2 (txToFeeInput (spendingTx 2 0)) {} = 11324 :=
  ⟨(required_fee_grows (grown_spendingTx (by decide) 0) ⟨by decide, by decide, by decide⟩).1.mpr
    ⟨by decide, by decide⟩ {} (by decide), by decide⟩

/-- The 256th input brings the count of signatures back to zero: the executor then takes the transaction for a fee that is
not enough for 255 inputs. -/
theorem signature_count_wraps :
    Grown (spendingTx 255 30000) (spendingTx 256 30000) ∧
      computeFeeV2 (txToFeeInput (spendingTx 255 30000)) {} = 1301624 ∧
      computeFeeV2 (txToFeeInput (spendingTx 256 30000)) {} = 26724 ∧
      validateTxFee (silentExternals.withFeeParams {}) defaultExecutor (spendingTx 255 30000) =
        .error (.insufficientFee 1301624 30000) ∧
      validateTxFee (silentExternals.withFeeParams {}) defaultExecutor (spendingTx 256 30000) = .ok () :=
  ⟨grown_spendingTx (by decide) _, by decide +kernel, by decide +kernel, by decide +kernel, by decide +kernel⟩

end SovereignNetwork.Execution
