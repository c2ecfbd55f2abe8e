import SovereignNetwork.Oracle.Quorum

/-!
# Who is slashed

A validator is slashed for two attestations of one epoch with different SOV prices.
-/

namespace SovereignNetwork.Oracle

open Lib

namespace OracleRun

variable {X : OracleExternals} {r r₀ : OracleRun} {l : Submission} {k : KeyId}

/-! ## Evidence -/

/-- Two processed attestations of one epoch with different SOV prices, both signed by the validator. -/
def DoubleSigned (X : OracleExternals) (r : OracleRun) (k : KeyId) : Prop :=
  ∃ a ∈ r.processed, ∃ b ∈ r.processed, a.validatorPubkey = k ∧ b.validatorPubkey = k ∧ a.epochId = b.epochId ∧
    a.sovUsdPrice ≠ b.sovUsdPrice ∧ Signed X.verifySignature (r.chain.resolveSigningPubkey X) a ∧
    Signed X.verifySignature (r.chain.resolveSigningPubkey X) b

instance (X : OracleExternals) (r : OracleRun) (k : KeyId) : Decidable (DoubleSigned X r k) :=
  inferInstanceAs (Decidable (∃ a ∈ r.processed, ∃ b ∈ r.processed, _))

theorem DoubleSigned.step (h : DoubleSigned X r k) : DoubleSigned X (r.step X l) k := by
  obtain ⟨a, ha, b, hb, h⟩ := h
  refine ⟨a, List.mem_cons_of_mem _ ha, b, List.mem_cons_of_mem _ hb, ?_⟩
  rw [resolve_step]
  exact h

/-- Every price that is recorded for a signer goes back to a processed attestation that is signed. -/
def Recorded (X : OracleExternals) (r : OracleRun) : Prop :=
  ∀ epoch k price, (r.chain.oracleState.epochStateAt epoch).signerPrices.lookup k = some price →
    Attested X.verifySignature (r.chain.resolveSigningPubkey X) r.processed epoch (·.sovUsdPrice = price) k

/-- The condition: an attestation that conflicts with the price recorded for its signer is signed. -/
def ConflictsSigned (X : OracleExternals) (r : OracleRun) (l : Submission) : Prop :=
  ∀ existing, r.chain.Conflicts l.attestation l.blockTimestamp existing →
    Signed X.verifySignature (r.chain.resolveSigningPubkey X) l.attestation

/-! ## One attestation -/

/-- The registry after one step: as it was, or with less stake for the validator that the attestation names, which then
has signed two prices. -/
inductive StepsAlone (X : OracleExternals) (r : OracleRun) (l : Submission) : Prop
  | slashed (hdouble : DoubleSigned X (r.step X l) l.attestation.validatorPubkey)
      (hchain : (r.step X l).chain =
        (r.chain.slashOracleValidator X l.attestation.validatorPubkey .conflictingAttestation l.attestation.epochId).2)
  | kept (hregistry : (r.step X l).chain.validatorRegistry = r.chain.validatorRegistry)
      (hcommittee : (r.step X l).chain.oracleState.committee = r.chain.oracleState.committee)

theorem stepsAlone (hrecorded : Recorded X r) (hcond : ConflictsSigned X r l) : StepsAlone X r l := by
  rcases r.chain.applyOracleAttestation_cases X l.attestation l.blockTimestamp with
    ⟨existing, hconflict, hslash⟩ | ⟨_, hprocess⟩
  · refine .slashed ?_ hslash
    obtain ⟨a, ha, hepoch, rfl, hsigner, hsigned⟩ := hrecorded _ _ _ hconflict.recorded
    refine ⟨a, List.mem_cons_of_mem _ ha, l.attestation, List.mem_cons_self, hsigner, rfl, hepoch,
      hconflict.differs, ?_, ?_⟩
    · rw [resolve_step]
      exact hsigned
    · rw [resolve_step]
      exact hcond _ hconflict
  · refine .kept ?_ ?_
    · rw [step, hprocess]
    · rw [step, hprocess]
      exact OracleState.committee_processAttestation

theorem Recorded.step (h : Recorded X r) : Recorded X (r.step X l) := by
  intro epoch k price hprice
  rw [resolve_step]
  have hold : (r.chain.oracleState.epochStateAt epoch).signerPrices.lookup k = some price →
      Attested X.verifySignature (r.chain.resolveSigningPubkey X) (l.attestation :: r.processed) epoch
        (·.sovUsdPrice = price) k := fun hprice => (h epoch k price hprice).cons l.attestation
  cases r.steps X l with
  | slashed _ hvotes _ =>
    rw [OracleState.epochStateAt, hvotes] at hprice
    exact hold hprice
  | ignored hstate =>
    rw [hstate] at hprice
    exact hold hprice
  | counted hepoch hadmits hstate =>
    rw [hstate, OracleState.view_countAttestation (·.signerPrices) fun _ _ _ => rfl] at hprice
    split at hprice
    · next heq =>
      subst heq
      rw [OracleState.counted, OracleEpochState.signerPrices_recordCbe] at hprice
      cases hfinal : (r.chain.oracleState.epochStateAt l.attestation.epochId).finalized with
      | true =>
        rw [OracleEpochState.recordSov_of_finalized hfinal] at hprice
        exact hold hprice
      | false =>
        rw [OracleEpochState.signerPrices_recordSov hfinal] at hprice
        split at hprice
        · next hkey =>
          cases hprice
          subst hkey
          rcases hadmits.signed_or_recorded with hsigned | hrecorded
          · exact .head rfl rfl hsigned
          · exact hold hrecorded
        · exact hold hprice
    · exact hold hprice

/-! ## The registry -/

theorem lookup_slashStake {c : OracleChain} {id : String} {v : ValidatorInfo}
    (h : c.validatorRegistry.lookup id = some v) :
    ∃ v', (c.slashStake X k).2.lookup id = some v' ∧ v'.consensusKey = v.consensusKey ∧
      (v'.stake = v.stake ∨ X.blake3Hash v.consensusKey = k) := by
  unfold OracleChain.slashStake
  split
  · next found w hfind =>
    rw [HashMap.lookup_modify]
    split
    · next hid =>
      subst hid
      obtain ⟨e, he, hew⟩ := Option.map_eq_some_iff.mp hfind
      obtain ⟨rfl, rfl⟩ := Prod.mk.inj hew
      have hw : c.validatorRegistry.lookup e.1 = some e.2 :=
        HashMap.mem_entries_iff.mp (List.mem_of_find?_eq_some he)
      rw [h] at hw
      cases hw
      refine ⟨{ e.2 with stake := e.2.stake - c.calculateSlash e.2.stake }, by rw [h]; rfl, rfl, .inr ?_⟩
      simpa using List.find?_some he
    · exact ⟨v, h, rfl, .inl rfl⟩
  · exact ⟨v, h, rfl, .inl rfl⟩

/-! ## Whole runs -/

/-- Since `r₀`, only validators that have signed two prices have lost stake or their seat. -/
structure Fair (X : OracleExternals) (r₀ r : OracleRun) : Prop where
  recorded : Recorded X r
  stakes : ∀ id v, r₀.chain.validatorRegistry.lookup id = some v →
    ∃ v', r.chain.validatorRegistry.lookup id = some v' ∧ v'.consensusKey = v.consensusKey ∧
      (v'.stake = v.stake ∨ DoubleSigned X r (X.blake3Hash v.consensusKey))
  members : ∀ k ∈ r₀.chain.oracleState.committee.members,
    k ∈ r.chain.oracleState.committee.members ∨ DoubleSigned X r k

theorem Fair.step (h : Fair X r₀ r) (hcond : ConflictsSigned X r l) : Fair X r₀ (r.step X l) := by
  refine ⟨h.recorded.step, fun id v hv => ?_, fun k hk => ?_⟩
  · obtain ⟨w, hw, hkey, hstake⟩ := h.stakes id v hv
    cases stepsAlone h.recorded hcond with
    | slashed hdouble hchain =>
      obtain ⟨w', hw', hkey', hstake'⟩ := lookup_slashStake (X := X) (k := l.attestation.validatorPubkey) hw
      refine ⟨w', by rw [hchain]; exact hw', hkey'.trans hkey, ?_⟩
      rcases hstake' with hstake' | hslashed
      · exact hstake.imp hstake'.trans DoubleSigned.step
      · rw [hkey] at hslashed
        exact .inr (hslashed ▸ hdouble)
    | kept hregistry _ => exact ⟨w, by rw [hregistry]; exact hw, hkey, hstake.imp (fun h => h) DoubleSigned.step⟩
  · rcases h.members k hk with hmember | hdouble
    · cases stepsAlone h.recorded hcond with
      | slashed hdouble hchain =>
        by_cases hkey : k = l.attestation.validatorPubkey
        · exact .inr (hkey ▸ hdouble)
        · rw [hchain]
          exact .inl (Finset.mem_erase_of_ne_of_mem hkey hmember)
      | kept _ hcommittee =>
        rw [hcommittee]
        exact .inl hmember
    · exact .inr hdouble.step

/-- Who loses stake or a seat in a run has signed two SOV prices for one epoch, if attestations that conflict are signed. -/
theorem only_double_signers_are_slashed (X : OracleExternals) (r : OracleRun) (hrecorded : Recorded X r)
    (submissions : List Submission) (hcond : Along (step X) (ConflictsSigned X) r submissions) :
    (∀ id v v', r.chain.validatorRegistry.lookup id = some v →
      (run (step X) r submissions).chain.validatorRegistry.lookup id = some v' → v'.stake < v.stake →
      DoubleSigned X (run (step X) r submissions) (X.blake3Hash v.consensusKey)) ∧
    ∀ k ∈ r.chain.oracleState.committee.members,
      k ∉ (run (step X) r submissions).chain.oracleState.committee.members →
      DoubleSigned X (run (step X) r submissions) k := by
  have hstart : Fair X r r := ⟨hrecorded, fun id v hv => ⟨v, hv, rfl, .inl rfl⟩, fun k hk => .inl hk⟩
  have hfair := hcond.invariant (fun _ _ hcond h => Fair.step h hcond) hstart
  refine ⟨fun id v v' hv hv' hless => ?_, fun k hk hnot => (hfair.members k hk).resolve_left hnot⟩
  obtain ⟨w, hw, -, hstake⟩ := hfair.stakes id v hv
  rw [hv'] at hw
  cases hw
  exact hstake.resolve_left (Nat.ne_of_lt hless)

def stakedMember : OracleChain :=
  { fourMembers with validatorRegistry := (∅ : HashMap String ValidatorInfo).insert "validator" ⟨10000, 0⟩ }

theorem recorded_of_no_votes {c : OracleChain} (h : c.oracleState.epochState = ∅) : Recorded X ⟨c, []⟩ := by
  intro epoch k price hprice
  rw [OracleState.epochStateAt, h] at hprice
  cases hprice

/-- The first member signs two prices: it is removed and its stake is cut. -/
theorem only_double_signers_are_slashed_with_evidence :
    Along (step signatureOfOne) (ConflictsSigned signatureOfOne) ⟨stakedMember, []⟩
        [submit 0 100 none [1], submit 0 101 none [1]] ∧
      (0 ∉ (run (step signatureOfOne) ⟨stakedMember, []⟩
        [submit 0 100 none [1], submit 0 101 none [1]]).chain.oracleState.committee.members) ∧
      DoubleSigned signatureOfOne (run (step signatureOfOne) ⟨stakedMember, []⟩
        [submit 0 100 none [1], submit 0 101 none [1]]) 0 := by
  have hcond : Along (step signatureOfOne) (ConflictsSigned signatureOfOne) ⟨stakedMember, []⟩
      [submit 0 100 none [1], submit 0 101 none [1]] :=
    ⟨fun _ _ => by decide +kernel, fun _ _ => by decide +kernel, trivial⟩
  have hremoved : 0 ∉ (run (step signatureOfOne) ⟨stakedMember, []⟩
      [submit 0 100 none [1], submit 0 101 none [1]]).chain.oracleState.committee.members := by
    decide +kernel
  refine ⟨hcond, hremoved, ?_⟩
  exact (only_double_signers_are_slashed signatureOfOne ⟨stakedMember, []⟩ (recorded_of_no_votes rfl) _ hcond).2 0
    (by decide) hremoved

/-- An attestation without a signature has the first member slashed, which has signed one price only. -/
theorem unsigned_conflict_slashes :
    ((run (step signatureOfOne) ⟨stakedMember, []⟩
        [submit 0 100 none [1], submit 0 101 none []]).chain.validatorRegistry.lookup "validator").map (·.stake) =
      some 9900 ∧
    (0 ∉ (run (step signatureOfOne) ⟨stakedMember, []⟩
      [submit 0 100 none [1], submit 0 101 none []]).chain.oracleState.committee.members) ∧
    ¬ DoubleSigned signatureOfOne (run (step signatureOfOne) ⟨stakedMember, []⟩
      [submit 0 100 none [1], submit 0 101 none []]) 0 := by
  decide +kernel

end OracleRun

end SovereignNetwork.Oracle
