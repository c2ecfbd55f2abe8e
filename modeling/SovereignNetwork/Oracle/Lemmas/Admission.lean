import SovereignNetwork.Oracle.Attestation

/-!
# What admission and counting do
-/

namespace SovereignNetwork.Oracle

open Lib

/-- The signature verifies under the key of the validator that the attestation names. -/
def Signed (verify : VerifySignature) (resolve : ResolvePubkey) (a : OraclePriceAttestation) : Prop :=
  ∃ pubkey, resolve a.validatorPubkey = some pubkey ∧ verify a pubkey = .ok ()

instance (verify : VerifySignature) (resolve : ResolvePubkey) (a : OraclePriceAttestation) :
    Decidable (Signed verify resolve a) :=
  decidable_of_iff ((resolve a.validatorPubkey).any fun pubkey => verify a pubkey = .ok ()) (by
    simp [Signed, Option.any_eq_true])

namespace OracleState

variable {verify : VerifySignature} {resolve : ResolvePubkey} {s s' : OracleState} {a : OraclePriceAttestation}
  {epoch price existing : Nat} {seen : Finset KeyId}

/-! ## The precheck -/

theorem validateAttestation_eq_ok (h : s.validateAttestation verify resolve a epoch seen = .ok ()) :
    a.validatorPubkey ∈ s.committee.members ∧ a.validatorPubkey ∉ seen ∧ Signed verify resolve a := by
  simp only [validateAttestation, guard_eq_ok, bind_eq_ok, okOr_eq_ok] at h
  obtain ⟨-, hmember, hseen, pubkey, hresolve, hverify⟩ := h
  exact ⟨not_not.mp hmember, hseen, pubkey, hresolve, hverify⟩

/-- The ways in which the precheck accepts an attestation. -/
inductive Admits (verify : VerifySignature) (resolve : ResolvePubkey) (s : OracleState) (a : OraclePriceAttestation)
    (epoch : Nat) : Prop
  | finalized (price : FinalizedOraclePrice) (hprice : s.finalizedPrices.lookup epoch = some price)
      (hsov : price.sovUsdPrice = a.sovUsdPrice) (hcbe : a.cbeUsdPrice.isSome)
      (hmember : a.validatorPubkey ∈ s.committee.members) (hsigned : Signed verify resolve a)
  | decided (hnone : s.finalizedPrices.lookup epoch = none) (hfinal : (s.epochStateAt epoch).finalized = true)
      (hwinning : (s.epochStateAt epoch).winningPrice = some a.sovUsdPrice) (hcbe : a.cbeUsdPrice.isSome)
      (hmember : a.validatorPubkey ∈ s.committee.members) (hsigned : Signed verify resolve a)
  | recorded (hnone : s.finalizedPrices.lookup epoch = none) (hopen : (s.epochStateAt epoch).finalized = false)
      (hrecorded : (s.epochStateAt epoch).signerPrices.lookup a.validatorPubkey = some a.sovUsdPrice)
      (hcbe : a.cbeUsdPrice.isSome)
  | fresh (hnone : s.finalizedPrices.lookup epoch = none) (hopen : (s.epochStateAt epoch).finalized = false)
      (hfresh : (s.epochStateAt epoch).signerPrices.lookup a.validatorPubkey = none)
      (hmember : a.validatorPubkey ∈ s.committee.members) (hsigned : Signed verify resolve a)

theorem precheckFinalized_eq_accepted (h : s.precheckFinalized verify resolve a epoch price = .ok .accepted) :
    price = a.sovUsdPrice ∧ a.cbeUsdPrice.isSome ∧ a.validatorPubkey ∈ s.committee.members ∧
      Signed verify resolve a := by
  simp only [precheckFinalized, guard_eq_ok] at h
  obtain ⟨hprice, h⟩ := h
  split at h
  · simp [pure, Except.pure] at h
  · next hcbe =>
    obtain ⟨_, hvalid, -⟩ := bind_eq_ok.mp h
    obtain ⟨hmember, -, hsigned⟩ := validateAttestation_eq_ok (mapError_eq_ok.mp hvalid)
    exact ⟨not_not.mp hprice, by simpa [Option.isSome_iff_ne_none] using hcbe, hmember, hsigned⟩

theorem precheckRecorded_eq_accepted (h : s.precheckRecorded a epoch existing = .ok .accepted) :
    existing = a.sovUsdPrice ∧ a.cbeUsdPrice.isSome := by
  simp only [precheckRecorded, guard_eq_ok] at h
  obtain ⟨hprice, h⟩ := h
  split at h
  · simp [pure, Except.pure] at h
  · next hcbe => exact ⟨not_not.mp hprice, by simpa [Option.isSome_iff_ne_none] using fun hnone => hcbe (.inl hnone)⟩

theorem precheckFresh_eq_ok {admission : OracleAttestationAdmission}
    (h : s.precheckFresh verify resolve a epoch = .ok admission) :
    a.validatorPubkey ∈ s.committee.members ∧ Signed verify resolve a := by
  obtain ⟨_, hvalid, -⟩ := bind_eq_ok.mp h
  obtain ⟨hmember, -, hsigned⟩ := validateAttestation_eq_ok (mapError_eq_ok.mp hvalid)
  exact ⟨hmember, hsigned⟩

theorem admits_of_precheckAttestation (h : s.precheckAttestation verify resolve a epoch = .ok .accepted) :
    a.epochId = epoch ∧ Admits verify resolve s a epoch := by
  unfold precheckAttestation at h
  split at h
  · cases h
  · next hepoch =>
    refine ⟨not_not.mp hepoch, ?_⟩
    split at h
    · next price hprice =>
      obtain ⟨hsov, hcbe, hmember, hsigned⟩ := precheckFinalized_eq_accepted h
      exact .finalized price hprice hsov hcbe hmember hsigned
    · next hnone =>
      split at h
      · next hfinal =>
        split at h
        · next winning hwinning =>
          obtain ⟨rfl, hcbe, hmember, hsigned⟩ := precheckFinalized_eq_accepted h
          exact .decided hnone hfinal hwinning hcbe hmember hsigned
        · cases h
      · next hopen =>
        have hopen := eq_false_of_ne_true hopen
        split at h
        · next existing hexisting =>
          obtain ⟨rfl, hcbe⟩ := precheckRecorded_eq_accepted h
          exact .recorded hnone hopen hexisting hcbe
        · next hfresh =>
          obtain ⟨hmember, hsigned⟩ := precheckFresh_eq_ok h
          exact .fresh hnone hopen hfresh hmember hsigned

theorem Admits.signed_or_recorded (h : Admits verify resolve s a epoch) :
    Signed verify resolve a ∨
      (s.epochStateAt epoch).signerPrices.lookup a.validatorPubkey = some a.sovUsdPrice := by
  cases h with
  | finalized _ _ _ _ _ hsigned => exact .inl hsigned
  | decided _ _ _ _ _ hsigned => exact .inl hsigned
  | recorded _ _ hrecorded _ => exact .inr hrecorded
  | fresh _ _ _ _ hsigned => exact .inl hsigned

/-! ## A signer with two prices -/

variable {signer : KeyId} {attempted : Nat}

theorem precheckFinalized_ne_conflict :
    s.precheckFinalized verify resolve a epoch price ≠ .error (.conflictingSigner signer existing attempted) := by
  intro h
  simp only [precheckFinalized, guard_eq_error] at h
  obtain ⟨-, h⟩ | ⟨-, h⟩ := h
  · cases h
  · split at h
    · cases h
    · obtain h | ⟨_, -, h⟩ := bind_eq_error.mp h
      · obtain ⟨_, -, h⟩ := mapError_eq_error h
        cases h
      · cases h

theorem precheckFresh_ne_conflict :
    s.precheckFresh verify resolve a epoch ≠ .error (.conflictingSigner signer existing attempted) := by
  intro h
  obtain h | ⟨_, -, h⟩ := bind_eq_error.mp h
  · obtain ⟨_, -, h⟩ := mapError_eq_error h
    cases h
  · split at h
    · obtain h | ⟨_, -, h⟩ := bind_eq_error.mp h
      · simp only [checkDeviationBand] at h
        split at h
        · cases h
        · cases h
      · cases h
    · cases h

theorem precheckAttestation_eq_conflict
    (h : s.precheckAttestation verify resolve a epoch = .error (.conflictingSigner signer existing attempted)) :
    a.epochId = epoch ∧ s.finalizedPrices.lookup epoch = none ∧ (s.epochStateAt epoch).finalized = false ∧
      (s.epochStateAt epoch).signerPrices.lookup a.validatorPubkey = some existing ∧ existing ≠ a.sovUsdPrice := by
  unfold precheckAttestation at h
  split at h
  · cases h
  · next hepoch =>
    split at h
    · exact absurd h precheckFinalized_ne_conflict
    · next hnone =>
      split at h
      · split at h
        · exact absurd h precheckFinalized_ne_conflict
        · cases h
      · next hopen =>
        split at h
        · next price hprice =>
          simp only [precheckRecorded, guard_eq_error] at h
          obtain ⟨hne, h⟩ | ⟨-, h⟩ := h
          · cases h
            exact ⟨not_not.mp hepoch, hnone, eq_false_of_ne_true hopen, hprice, hne⟩
          · split at h
            · cases h
            · cases h
        · exact absurd h precheckFresh_ne_conflict

/-! ## Processing -/

theorem countAttestation_ne_conflict :
    (s.countAttestation a epoch).1 ≠ .error (.conflictingSigner signer existing attempted) := by
  unfold countAttestation
  dsimp only
  split
  · split
    · split
      · exact fun h => by cases h
      · exact fun h => by cases h
    · exact fun h => by cases h
  · exact fun h => by cases h

theorem processAttestation_cases (verify : VerifySignature) (resolve : ResolvePubkey) (s : OracleState)
    (a : OraclePriceAttestation) (epoch : Nat) :
    (s.processAttestation verify resolve a epoch).2 = s ∨
      a.epochId = epoch ∧ Admits verify resolve s a epoch ∧
        s.processAttestation verify resolve a epoch = s.countAttestation a epoch := by
  unfold processAttestation
  split
  · exact .inl rfl
  · next h =>
    obtain ⟨hepoch, hadmits⟩ := admits_of_precheckAttestation h
    exact .inr ⟨hepoch, hadmits, rfl⟩
  · exact .inl rfl

theorem processAttestation_eq_conflict
    (h : (s.processAttestation verify resolve a epoch).1 = .error (.conflictingSigner signer existing attempted)) :
    (s.processAttestation verify resolve a epoch).2 = s ∧ a.epochId = epoch ∧
      s.finalizedPrices.lookup epoch = none ∧ (s.epochStateAt epoch).finalized = false ∧
      (s.epochStateAt epoch).signerPrices.lookup a.validatorPubkey = some existing ∧ existing ≠ a.sovUsdPrice := by
  unfold processAttestation at h ⊢
  split at h
  · next e he =>
    cases h
    exact ⟨rfl, precheckAttestation_eq_conflict he⟩
  · exact absurd h countAttestation_ne_conflict
  · cases h

end OracleState

end SovereignNetwork.Oracle
