import SovereignNetwork.Oracle.Chain
import SovereignNetwork.Oracle.Lemmas.Tally

/-!
# What an attestation does to the chain
-/

namespace SovereignNetwork.Oracle

open Lib

namespace OracleChain

variable {X : OracleExternals} {c : OracleChain} {a : OraclePriceAttestation} {blockTimestamp : Nat} {keyId : KeyId}

/-! ## Keys -/

def consensusKeyOf (X : OracleExternals) (c : OracleChain) (keyId : KeyId) : Option DilithiumPk :=
  (c.findValidator X keyId).map fun v => v.2.consensusKey

theorem resolveSigningPubkey_congr {c' : OracleChain}
    (hkeys : c'.oracleState.oracleSigningPubkeys = c.oracleState.oracleSigningPubkeys)
    (hconsensus : c'.consensusKeyOf X = c.consensusKeyOf X) :
    c'.resolveSigningPubkey X = c.resolveSigningPubkey X := by
  funext keyId
  have hfind : (c'.findValidator X keyId).map (fun v => v.2.consensusKey.asSlice) =
      (c.findValidator X keyId).map fun v => v.2.consensusKey.asSlice := by
    have h := congrArg (Option.map Bytes.asSlice) (congrFun hconsensus keyId)
    simpa only [consensusKeyOf, Option.map_map, Function.comp_def] using h
  rw [resolveSigningPubkey, resolveSigningPubkey, hkeys, hfind]

theorem find?_map_of_comp {α β : Type} {f : α → α} {p : α → Bool} {g : α → β} (hp : ∀ x, p (f x) = p x)
    (hg : ∀ x, g (f x) = g x) (l : List α) : ((l.map f).find? p).map g = (l.find? p).map g := by
  rw [List.find?_map, show p ∘ f = p from funext hp, Option.map_map, show g ∘ f = g from funext hg]

theorem consensusKeyOf_slash (c : OracleChain) (keyId : KeyId) (reason : OracleSlashReason) (epochId : Nat)
    (aligned : Bool) :
    (c.slashOracleValidatorWithOptions X keyId reason epochId aligned).2.consensusKeyOf X = c.consensusKeyOf X := by
  funext k
  simp only [slashOracleValidatorWithOptions, slashStake, consensusKeyOf, findValidator, Option.map_map,
    Function.comp_def]
  split
  · refine find?_map_of_comp (fun e => ?_) (fun e => ?_) _
    · dsimp only
      split <;> rfl
    · dsimp only
      split <;> rfl
  · rfl

/-! ## The effect of an attestation -/

/-- What the oracle makes of the attestation. -/
def processed (X : OracleExternals) (c : OracleChain) (a : OraclePriceAttestation) (blockTimestamp : Nat) :
    Except OracleAttestationAdmissionError OracleAttestationAdmission × OracleState :=
  c.oracleState.processAttestation X.verifySignature (c.resolveSigningPubkey X) a (c.oracleState.epochId blockTimestamp)

/-- A price is recorded for the signer in the current epoch, and the attestation names another one. -/
structure Conflicts (c : OracleChain) (a : OraclePriceAttestation) (blockTimestamp existing : Nat) : Prop where
  epoch : a.epochId = c.oracleState.epochId blockTimestamp
  no_price : c.oracleState.finalizedPrices.lookup a.epochId = none
  is_open : (c.oracleState.epochStateAt a.epochId).finalized = false
  recorded : (c.oracleState.epochStateAt a.epochId).signerPrices.lookup a.validatorPubkey = some existing
  differs : existing ≠ a.sovUsdPrice

theorem recordFinalized_frame (c : OracleChain) (blockTimestamp : Nat) (admission : OracleAttestationAdmission) :
    ∃ pricing, c.recordFinalized blockTimestamp admission = { c with tokenPricingState := pricing } := by
  unfold recordFinalized
  split
  · split
    · exact ⟨_, rfl⟩
    · exact ⟨c.tokenPricingState, rfl⟩
  · exact ⟨c.tokenPricingState, rfl⟩

theorem applyOracleAttestation_cases (X : OracleExternals) (c : OracleChain) (a : OraclePriceAttestation)
    (blockTimestamp : Nat) :
    (∃ existing, Conflicts c a blockTimestamp existing ∧
      (c.applyOracleAttestation X a blockTimestamp).2 =
        (c.slashOracleValidator X a.validatorPubkey .conflictingAttestation a.epochId).2) ∨
    ∃ pricing, (c.applyOracleAttestation X a blockTimestamp).2 =
      { c with oracleState := (c.processed X a blockTimestamp).2, tokenPricingState := pricing } := by
  cases hprocess : c.processed X a blockTimestamp with
  | mk result oracleState =>
    unfold processed at hprocess
    cases result with
    | ok admission =>
      obtain ⟨pricing, hpricing⟩ := recordFinalized_frame { c with oracleState := oracleState } blockTimestamp admission
      refine .inr ⟨pricing, ?_⟩
      simp only [applyOracleAttestation, hprocess, hpricing]
    | error e =>
      cases e with
      | conflictingSigner signer existing attempted =>
        obtain ⟨hsame, hepoch, hnone, hopen, hrecorded, hne⟩ :=
          OracleState.processAttestation_eq_conflict (congrArg Prod.fst hprocess)
        rw [hprocess] at hsame
        dsimp only at hsame
        subst hsame
        refine .inl ⟨existing, ⟨hepoch, hepoch ▸ hnone, hepoch ▸ hopen, hepoch ▸ hrecorded, hne⟩, ?_⟩
        simp only [applyOracleAttestation, hprocess]
      | validation e => exact .inr ⟨c.tokenPricingState, by simp only [applyOracleAttestation, hprocess]⟩
      | conflictingFinalizedPrice _ _ _ =>
        exact .inr ⟨c.tokenPricingState, by simp only [applyOracleAttestation, hprocess]⟩

theorem oracleSigningPubkeys_processed :
    (c.processed X a blockTimestamp).2.oracleSigningPubkeys = c.oracleState.oracleSigningPubkeys := by
  rcases c.oracleState.processAttestation_cases X.verifySignature (c.resolveSigningPubkey X) a
    (c.oracleState.epochId blockTimestamp) with hsame | ⟨-, -, hcount⟩
  · rw [processed, hsame]
  · obtain ⟨_, _, _, hframe⟩ := c.oracleState.countAttestation_frame a (c.oracleState.epochId blockTimestamp)
    rw [processed, hcount, hframe]

theorem resolveSigningPubkey_applyOracleAttestation :
    (c.applyOracleAttestation X a blockTimestamp).2.resolveSigningPubkey X = c.resolveSigningPubkey X := by
  rcases c.applyOracleAttestation_cases X a blockTimestamp with ⟨_, -, hslash⟩ | ⟨_, hprocess⟩
  · rw [hslash]
    exact resolveSigningPubkey_congr rfl (consensusKeyOf_slash _ _ _ _ _)
  · rw [hprocess]
    exact resolveSigningPubkey_congr oracleSigningPubkeys_processed rfl

end OracleChain

end SovereignNetwork.Oracle
