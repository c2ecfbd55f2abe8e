import SovereignNetwork.Lib.Run
import SovereignNetwork.Oracle.Lemmas.Chain

/-!
# Prices and their quorums

A run of attestations on the chain, from a state without records.
-/

namespace SovereignNetwork.Oracle

open Lib

/-! ## Votes on the CBE price -/

/-- The votes on the CBE price are attested, the winning price has enough of them, and it is the finalized one. -/
structure CbeTally (verify : VerifySignature) (resolve : ResolvePubkey) (processed : List OraclePriceAttestation)
    (s : OracleState) : Prop where
  attested : ∀ epoch price, ∀ k ∈ (s.epochStateAt epoch).cbeSignersOf price,
    Attested verify resolve processed epoch (·.cbeUsdPrice = some price) k
  winning : ∀ epoch price, (s.epochStateAt epoch).winningCbePrice = some price →
    s.committee.threshold ≤ ((s.epochStateAt epoch).cbeSignersOf price).card
  finalized : ∀ epoch price, s.finalizedPrices.lookup epoch = some price →
    price.cbeUsdPrice = (s.epochStateAt epoch).winningCbePrice

section

variable {verify : VerifySignature} {resolve : ResolvePubkey} {processed : List OraclePriceAttestation}
  {s : OracleState} {a : OraclePriceAttestation} {epoch : Nat} {k : KeyId}

theorem CbeTally.cons (a : OraclePriceAttestation) (h : CbeTally verify resolve processed s) :
    CbeTally verify resolve (a :: processed) s :=
  ⟨fun epoch price k hk => (h.attested epoch price k hk).cons a, h.winning, h.finalized⟩

theorem CbeTally.congr {s' : OracleState} (h : CbeTally verify resolve processed s)
    (hstate : s'.epochState = s.epochState) (hprices : s'.finalizedPrices = s.finalizedPrices)
    (hthreshold : s'.committee.threshold ≤ s.committee.threshold) : CbeTally verify resolve processed s' := by
  have hvotes : s'.epochStateAt = s.epochStateAt := by
    unfold OracleState.epochStateAt
    rw [hstate]
  refine ⟨by rw [hvotes]; exact h.attested, fun epoch price hprice => ?_, by rw [hvotes, hprices]; exact h.finalized⟩
  rw [hvotes] at hprice ⊢
  exact Nat.le_trans hthreshold (h.winning epoch price hprice)

theorem CbeTally.empty (hstate : s.epochState = ∅) (hprices : s.finalizedPrices = ∅) :
    CbeTally verify resolve [] s := by
  have hempty : ∀ epoch, s.epochStateAt epoch = {} := fun epoch => by
    rw [OracleState.epochStateAt, hstate]
    rfl
  refine ⟨fun epoch price k hk => ?_, fun epoch price hprice => ?_, fun epoch price hprice => ?_⟩
  · rw [hempty] at hk
    exact absurd hk (Finset.notMem_empty _)
  · rw [hempty] at hprice
    cases hprice
  · rw [hprices] at hprice
    cases hprice

/-- The attestation is signed, or its CBE vote is one that is already counted. -/
def CbeVoteStands (verify : VerifySignature) (resolve : ResolvePubkey) (s : OracleState) (a : OraclePriceAttestation)
    (epoch : Nat) : Prop :=
  Signed verify resolve a ∨
    ∀ price ∈ a.cbeUsdPrice, a.validatorPubkey ∈ (s.epochStateAt epoch).cbeSignersOf price

instance (verify : VerifySignature) (resolve : ResolvePubkey) (s : OracleState) (a : OraclePriceAttestation)
    (epoch : Nat) : Decidable (CbeVoteStands verify resolve s a epoch) :=
  inferInstanceAs (Decidable (_ ∨ _))

theorem cbeSignersOf_counted (price : Nat) :
    (s.counted a epoch).2.cbeSignersOf price =
      if a.cbeUsdPrice = some price then insert a.validatorPubkey ((s.epochStateAt epoch).cbeSignersOf price)
      else (s.epochStateAt epoch).cbeSignersOf price := by
  rw [OracleState.counted, OracleEpochState.cbeSignersOf_recordCbe, OracleEpochState.cbeSignersOf_recordSov]

theorem CbeTally.attested_counted (h : CbeTally verify resolve processed s) (hepoch : a.epochId = epoch)
    (hstands : CbeVoteStands verify resolve s a epoch) {price : Nat}
    (hk : k ∈ (s.counted a epoch).2.cbeSignersOf price) :
    Attested verify resolve (a :: processed) epoch (·.cbeUsdPrice = some price) k := by
  rw [cbeSignersOf_counted] at hk
  split at hk
  · next hcbe =>
    rcases Finset.mem_insert.mp hk with rfl | hk
    · rcases hstands with hsigned | hcounted
      · exact .head hepoch hcbe hsigned
      · exact (h.attested _ _ _ (hcounted price hcbe)).cons a
    · exact (h.attested _ _ _ hk).cons a
  · exact (h.attested _ _ _ hk).cons a

theorem counted_cases (s : OracleState) (a : OraclePriceAttestation) (epoch : Nat) :
    (s.counted a epoch).1 = false ∧ (s.counted a epoch).2.winningCbePrice = (s.epochStateAt epoch).winningCbePrice ∨
      ∃ cbe, a.cbeUsdPrice = some cbe ∧ (s.epochStateAt epoch).winningCbePrice = none ∧
        (s.counted a epoch).1 = true ∧ (s.counted a epoch).2.winningCbePrice = some cbe ∧
        s.committee.threshold ≤ ((s.counted a epoch).2.cbeSignersOf cbe).card := by
  have hcases := ((s.epochStateAt epoch).recordSov a).recordCbe_cases a s.committee.threshold
  rwa [OracleEpochState.winningCbePrice_recordSov] at hcases

theorem CbeTally.winning_counted (h : CbeTally verify resolve processed s) {price : Nat}
    (hprice : (s.counted a epoch).2.winningCbePrice = some price) :
    s.committee.threshold ≤ ((s.counted a epoch).2.cbeSignersOf price).card := by
  rcases counted_cases s a epoch with ⟨-, hsame⟩ | ⟨cbe, -, -, -, hcbe, hcard⟩
  · refine Nat.le_trans (h.winning epoch price (hsame ▸ hprice)) (Finset.card_le_card ?_)
    rw [cbeSignersOf_counted]
    split
    · exact Finset.subset_insert _ _
    · exact fun _ hk => hk
  · rw [hcbe] at hprice
    cases hprice
    exact hcard

theorem CbeTally.finalized_counted (h : CbeTally verify resolve processed s)
    (haccepts : SovTally.Accepts verify resolve s a epoch) {price : FinalizedOraclePrice}
    (hprice : (s.countAttestation a epoch).2.finalizedPrices.lookup epoch = some price) :
    price.cbeUsdPrice = (s.counted a epoch).2.winningCbePrice := by
  have hopen : s.finalizedPrices.lookup epoch = none → (s.epochStateAt epoch).finalized = false →
      price.cbeUsdPrice = (s.counted a epoch).2.winningCbePrice := by
    intro hnone hopen
    rw [OracleState.lookup_countAttestation_open hnone hopen] at hprice
    split at hprice
    · cases hprice
      rfl
    · cases hprice
  cases haccepts with
  | final old hold hfinal _ _ =>
    rw [OracleState.lookup_countAttestation_final hold hfinal] at hprice
    cases hprice
    rcases counted_cases s a epoch with ⟨hfalse, hsame⟩ | ⟨cbe, -, -, htrue, hcbe, -⟩
    · rw [hsame, ← h.finalized epoch old hold]
      simp only [hfalse, Bool.false_eq_true, if_false]
    · simp only [htrue, if_true, hcbe, Option.some_or]
  | recorded hnone hfalse _ _ => exact hopen hnone hfalse
  | fresh hnone hfalse _ _ => exact hopen hnone hfalse

theorem CbeTally.countAttestation (h : CbeTally verify resolve processed s) (hepoch : a.epochId = epoch)
    (haccepts : SovTally.Accepts verify resolve s a epoch) (hstands : CbeVoteStands verify resolve s a epoch) :
    CbeTally verify resolve (a :: processed) (s.countAttestation a epoch).2 := by
  have hcommittee : (s.countAttestation a epoch).2.committee = s.committee := by
    obtain ⟨_, _, _, hframe⟩ := s.countAttestation_frame a epoch
    rw [hframe]
  have hsigners : ∀ epoch' price, ((s.countAttestation a epoch).2.epochStateAt epoch').cbeSignersOf price = _ :=
    fun epoch' price => OracleState.view_countAttestation (·.cbeSignersOf price) (fun _ _ _ => rfl) epoch'
  have hwinning : ∀ epoch', ((s.countAttestation a epoch).2.epochStateAt epoch').winningCbePrice = _ :=
    OracleState.view_countAttestation (·.winningCbePrice) fun _ _ _ => rfl
  refine ⟨fun epoch' price k hk => ?_, fun epoch' price hprice => ?_, fun epoch' price hprice => ?_⟩
  · rw [hsigners] at hk
    split at hk
    · next heq => exact heq ▸ h.attested_counted hepoch hstands hk
    · exact (h.attested _ _ _ hk).cons a
  · rw [hwinning] at hprice
    rw [hsigners, hcommittee]
    split at hprice
    · next heq =>
      rw [if_pos heq]
      exact h.winning_counted hprice
    · next hne =>
      rw [if_neg hne]
      exact h.winning _ _ hprice
  · rw [hwinning]
    split
    · next heq =>
      subst heq
      exact h.finalized_counted haccepts hprice
    · next hne =>
      rw [OracleState.finalizedPrices_countAttestation_of_ne hne] at hprice
      exact h.finalized _ _ hprice

end

/-! ## Runs -/

structure OracleRun where
  chain : OracleChain
  processed : List OraclePriceAttestation := []

structure Submission where
  attestation : OraclePriceAttestation
  blockTimestamp : Nat

namespace OracleRun

def step (X : OracleExternals) (r : OracleRun) (l : Submission) : OracleRun :=
  ⟨(r.chain.applyOracleAttestation X l.attestation l.blockTimestamp).2, l.attestation :: r.processed⟩

def sovPrice (r : OracleRun) (epoch : Nat) : Option Nat :=
  (r.chain.oracleState.finalizedPrices.lookup epoch).map (·.sovUsdPrice)

def cbePrice (r : OracleRun) (epoch : Nat) : Option Nat :=
  (r.chain.oracleState.finalizedPrices.lookup epoch).bind (·.cbeUsdPrice)

/-- As many members of the committee as the threshold asks for have a processed, signed attestation that meets
`names`. -/
def HasQuorum (X : OracleExternals) (r : OracleRun) (epoch : Nat) (names : OraclePriceAttestation → Prop) : Prop :=
  ∃ signers ⊆ r.chain.oracleState.committee.members, r.chain.oracleState.committee.threshold ≤ signers.card ∧
    ∀ k ∈ signers, Attested X.verifySignature (r.chain.resolveSigningPubkey X) r.processed epoch names k

/-- A price that the step sets has its quorum, in the committee after the step. -/
def SetsWithQuorum (X : OracleExternals) (r : OracleRun) (l : Submission) : Prop :=
  ∀ epoch price,
    ((r.step X l).sovPrice epoch = some price → r.sovPrice epoch ≠ some price →
      (r.step X l).HasQuorum X epoch (·.sovUsdPrice = price)) ∧
    ((r.step X l).cbePrice epoch = some price → r.cbePrice epoch ≠ some price →
      (r.step X l).HasQuorum X epoch (·.cbeUsdPrice = some price))

/-- The step changes no price that is set. -/
def KeepsPrices (X : OracleExternals) (r : OracleRun) (l : Submission) : Prop :=
  ∀ epoch price, (r.sovPrice epoch = some price → (r.step X l).sovPrice epoch = some price) ∧
    (r.cbePrice epoch = some price → (r.step X l).cbePrice epoch = some price)

/-! ## The condition -/

def votes (r : OracleRun) (l : Submission) : OracleEpochState :=
  r.chain.oracleState.epochStateAt (r.chain.oracleState.epochId l.blockTimestamp)

/-- The condition on an attestation of the current epoch. Until its prices are set, those whose votes count for the
prices that it can set are still in the committee; and an attestation that adds a CBE price to a recorded SOV price is
signed. -/
structure Counts (X : OracleExternals) (r : OracleRun) (l : Submission) : Prop where
  members : r.sovPrice l.attestation.epochId = none →
    (r.votes l).signersOf l.attestation.sovUsdPrice ⊆ r.chain.oracleState.committee.members
  cbeMembers : r.cbePrice l.attestation.epochId = none →
    ∀ price ∈ l.attestation.cbeUsdPrice.toList ++ (r.votes l).winningCbePrice.toList,
    (r.votes l).cbeSignersOf price ⊆ r.chain.oracleState.committee.members
  signed : r.sovPrice l.attestation.epochId = none →
    (r.votes l).signerPrices.lookup l.attestation.validatorPubkey = some l.attestation.sovUsdPrice →
    CbeVoteStands X.verifySignature (r.chain.resolveSigningPubkey X) r.chain.oracleState l.attestation
      l.attestation.epochId

def CountsCurrent (X : OracleExternals) (r : OracleRun) (l : Submission) : Prop :=
  l.attestation.epochId = r.chain.oracleState.epochId l.blockTimestamp → Counts X r l

instance (X : OracleExternals) (r : OracleRun) (l : Submission) : Decidable (CountsCurrent X r l) :=
  have : Decidable (Counts X r l) :=
    decidable_of_iff (_ ∧ _ ∧ _) ⟨fun h => ⟨h.1, h.2.1, h.2.2⟩, fun h => ⟨h.members, h.cbeMembers, h.signed⟩⟩
  inferInstanceAs (Decidable (_ → _))

/-! ## One attestation -/

structure Tallied (X : OracleExternals) (r : OracleRun) : Prop where
  sov : SovTally X.verifySignature (r.chain.resolveSigningPubkey X) r.processed r.chain.oracleState
  cbe : CbeTally X.verifySignature (r.chain.resolveSigningPubkey X) r.processed r.chain.oracleState

variable {X : OracleExternals} {r : OracleRun} {l : Submission}

theorem resolve_step : (r.step X l).chain.resolveSigningPubkey X = r.chain.resolveSigningPubkey X :=
  OracleChain.resolveSigningPubkey_applyOracleAttestation

/-- An attestation slashes its signer, changes nothing in the oracle, or is counted. -/
inductive Steps (X : OracleExternals) (r : OracleRun) (l : Submission) : Prop
  | slashed (hprices : (r.step X l).chain.oracleState.finalizedPrices = r.chain.oracleState.finalizedPrices)
      (hvotes : (r.step X l).chain.oracleState.epochState = r.chain.oracleState.epochState)
      (hcommittee : (r.step X l).chain.oracleState.committee =
        r.chain.oracleState.committee.removeMember l.attestation.validatorPubkey)
  | ignored (hstate : (r.step X l).chain.oracleState = r.chain.oracleState)
  | counted (hepoch : l.attestation.epochId = r.chain.oracleState.epochId l.blockTimestamp)
      (hadmits : r.chain.oracleState.Admits X.verifySignature (r.chain.resolveSigningPubkey X) l.attestation
        l.attestation.epochId)
      (hstate : (r.step X l).chain.oracleState =
        (r.chain.oracleState.countAttestation l.attestation l.attestation.epochId).2)

theorem steps (X : OracleExternals) (r : OracleRun) (l : Submission) : Steps X r l := by
  rcases r.chain.applyOracleAttestation_cases X l.attestation l.blockTimestamp with
    ⟨_, -, hslash⟩ | ⟨_, hprocess⟩
  · have hchain : (r.step X l).chain = _ := hslash
    exact .slashed (by rw [hchain]; rfl) (by rw [hchain]; rfl) (by rw [hchain]; rfl)
  · have hchain : (r.step X l).chain.oracleState = (r.chain.processed X l.attestation l.blockTimestamp).2 := by
      rw [step, hprocess]
    rcases r.chain.oracleState.processAttestation_cases X.verifySignature (r.chain.resolveSigningPubkey X) l.attestation
      (r.chain.oracleState.epochId l.blockTimestamp) with hsame | ⟨hepoch, hadmits, hcount⟩
    · exact .ignored (hchain.trans hsame)
    · exact .counted hepoch (hepoch ▸ hadmits) (hchain.trans (congrArg Prod.snd (hepoch ▸ hcount)))

theorem threshold_removeMember_le (c : OracleCommitteeState) (k : KeyId) :
    (c.removeMember k).threshold ≤ c.threshold := by
  have hcard : (c.members.erase k).card ≤ c.members.card := Finset.card_le_card (Finset.erase_subset _ _)
  unfold OracleCommitteeState.threshold OracleCommitteeState.removeMember
  dsimp only
  omega

theorem CountsCurrent.stands (hcond : CountsCurrent X r l)
    (hepoch : l.attestation.epochId = r.chain.oracleState.epochId l.blockTimestamp)
    (haccepts : SovTally.Accepts X.verifySignature (r.chain.resolveSigningPubkey X) r.chain.oracleState l.attestation
      l.attestation.epochId) :
    CbeVoteStands X.verifySignature (r.chain.resolveSigningPubkey X) r.chain.oracleState l.attestation
      l.attestation.epochId := by
  cases haccepts with
  | final _ _ _ _ hsigned => exact .inl hsigned
  | recorded hnone _ _ hlookup =>
    refine (hcond hepoch).signed ?_ ?_
    · rw [sovPrice, hnone]
      rfl
    · rw [votes, ← hepoch]
      exact hlookup
  | fresh _ _ _ hsigned => exact .inl hsigned

theorem Tallied.step (h : Tallied X r) (hcond : CountsCurrent X r l) : Tallied X (r.step X l) := by
  cases r.steps X l with
  | slashed hprices hvotes hcommittee =>
    refine ⟨?_, ?_⟩
    · rw [resolve_step]
      exact (h.sov.cons l.attestation).congr hvotes hprices
    · rw [resolve_step]
      refine (h.cbe.cons l.attestation).congr hvotes hprices ?_
      rw [hcommittee]
      exact threshold_removeMember_le _ _
  | ignored hstate =>
    refine ⟨?_, ?_⟩
    · rw [resolve_step, hstate]
      exact h.sov.cons l.attestation
    · rw [resolve_step, hstate]
      exact h.cbe.cons l.attestation
  | counted hepoch hadmits hstate =>
    have haccepts := h.sov.accepts hadmits
    refine ⟨?_, ?_⟩
    · rw [resolve_step, hstate]
      exact h.sov.countAttestation rfl haccepts
    · rw [resolve_step, hstate]
      exact h.cbe.countAttestation rfl haccepts (hcond.stands hepoch haccepts)

/-! ## Quorums of the prices that a step sets -/

/-- An attestation that is counted, in a state with sound votes. -/
structure CountedStep (X : OracleExternals) (r : OracleRun) (l : Submission) : Prop where
  tallied : Tallied X r
  counts : Counts X r l
  epoch : l.attestation.epochId = r.chain.oracleState.epochId l.blockTimestamp
  accepts : SovTally.Accepts X.verifySignature (r.chain.resolveSigningPubkey X) r.chain.oracleState l.attestation
    l.attestation.epochId
  stands : CbeVoteStands X.verifySignature (r.chain.resolveSigningPubkey X) r.chain.oracleState l.attestation
    l.attestation.epochId
  state_eq : (r.step X l).chain.oracleState =
    (r.chain.oracleState.countAttestation l.attestation l.attestation.epochId).2

namespace CountedStep

variable (h : CountedStep X r l)

include h

theorem committee_eq : (r.step X l).chain.oracleState.committee = r.chain.oracleState.committee := by
  obtain ⟨_, _, _, hframe⟩ := r.chain.oracleState.countAttestation_frame l.attestation l.attestation.epochId
  rw [h.state_eq, hframe]

theorem votes_eq : r.votes l = r.chain.oracleState.epochStateAt l.attestation.epochId := by rw [votes, h.epoch]

theorem hasQuorum {names : OraclePriceAttestation → Prop} {signers : Finset KeyId}
    (hsub : signers ⊆ r.chain.oracleState.committee.members)
    (hcard : r.chain.oracleState.committee.threshold ≤ signers.card)
    (hattested : ∀ k ∈ signers, Attested X.verifySignature (r.chain.resolveSigningPubkey X)
      (l.attestation :: r.processed) l.attestation.epochId names k) :
    (r.step X l).HasQuorum X l.attestation.epochId names := by
  refine ⟨signers, ?_, ?_, ?_⟩
  · rw [h.committee_eq]
    exact hsub
  · rw [h.committee_eq]
    exact hcard
  · rw [resolve_step]
    exact hattested

theorem mem_members : l.attestation.validatorPubkey ∈ r.chain.oracleState.committee.members := by
  cases h.accepts with
  | final _ _ _ hmember _ => exact hmember
  | recorded hnone _ hrecorded _ =>
    refine h.counts.members (by rw [sovPrice, hnone]; rfl) ?_
    rw [h.votes_eq]
    exact hrecorded
  | fresh _ _ hmember _ => exact hmember

theorem sov_quorum (hnone : r.chain.oracleState.finalizedPrices.lookup l.attestation.epochId = none)
    (hopen : (r.chain.oracleState.epochStateAt l.attestation.epochId).finalized = false)
    (hcard : r.chain.oracleState.committee.threshold ≤
      ((r.chain.oracleState.counted l.attestation l.attestation.epochId).2.signersOf l.attestation.sovUsdPrice).card) :
    (r.step X l).HasQuorum X l.attestation.epochId (·.sovUsdPrice = l.attestation.sovUsdPrice) := by
  refine h.hasQuorum ?_ hcard fun k hk => h.tallied.sov.attested_counted rfl h.accepts hk
  rw [OracleState.counted, OracleEpochState.signersOf_recordCbe, OracleEpochState.signersOf_recordSov hopen, if_pos rfl]
  refine Finset.insert_subset h.mem_members fun k hk => ?_
  refine h.counts.members (by rw [sovPrice, hnone]; rfl) ?_
  rw [h.votes_eq]
  exact hk

theorem cbe_quorum {price : Nat} (hnone : r.cbePrice l.attestation.epochId = none)
    (hprice : (r.chain.oracleState.counted l.attestation l.attestation.epochId).2.winningCbePrice = some price) :
    (r.step X l).HasQuorum X l.attestation.epochId (·.cbeUsdPrice = some price) := by
  have hsource : price ∈ l.attestation.cbeUsdPrice.toList ++ (r.votes l).winningCbePrice.toList := by
    rw [List.mem_append, Option.mem_toList, Option.mem_toList]
    rcases counted_cases r.chain.oracleState l.attestation l.attestation.epochId with
      ⟨-, hsame⟩ | ⟨cbe, hcbe, -, -, hwinning, -⟩
    · exact .inr (by rw [h.votes_eq, ← hsame, hprice])
    · rw [hwinning] at hprice
      exact .inl (hprice ▸ hcbe)
  have hold : (r.chain.oracleState.epochStateAt l.attestation.epochId).cbeSignersOf price ⊆
      r.chain.oracleState.committee.members := by
    intro k hk
    refine h.counts.cbeMembers hnone price hsource ?_
    rw [h.votes_eq]
    exact hk
  refine h.hasQuorum ?_ (h.tallied.cbe.winning_counted hprice)
    fun k hk => h.tallied.cbe.attested_counted rfl h.stands hk
  rw [cbeSignersOf_counted]
  split
  · exact Finset.insert_subset h.mem_members hold
  · exact hold

theorem cbePrice_step {price : FinalizedOraclePrice}
    (hprice : (r.step X l).chain.oracleState.finalizedPrices.lookup l.attestation.epochId = some price) :
    (r.step X l).cbePrice l.attestation.epochId =
      (r.chain.oracleState.counted l.attestation l.attestation.epochId).2.winningCbePrice := by
  rw [cbePrice, hprice]
  rw [h.state_eq] at hprice
  exact h.tallied.cbe.finalized_counted h.accepts hprice

theorem cbePrice_eq {price : FinalizedOraclePrice}
    (hprice : r.chain.oracleState.finalizedPrices.lookup l.attestation.epochId = some price) :
    r.cbePrice l.attestation.epochId = (r.chain.oracleState.epochStateAt l.attestation.epochId).winningCbePrice := by
  rw [cbePrice, hprice]
  exact h.tallied.cbe.finalized _ _ hprice

theorem setsWithQuorum_open (hnone : r.chain.oracleState.finalizedPrices.lookup l.attestation.epochId = none)
    (hopen : (r.chain.oracleState.epochStateAt l.attestation.epochId).finalized = false) (price : Nat) :
    ((r.step X l).sovPrice l.attestation.epochId = some price →
        (r.step X l).HasQuorum X l.attestation.epochId (·.sovUsdPrice = price)) ∧
      ((r.step X l).cbePrice l.attestation.epochId = some price →
        (r.step X l).HasQuorum X l.attestation.epochId (·.cbeUsdPrice = some price)) := by
  have hlookup := OracleState.lookup_countAttestation_open (a := l.attestation) hnone hopen
  rw [← h.state_eq] at hlookup
  by_cases hcard : r.chain.oracleState.committee.threshold ≤
      ((r.chain.oracleState.counted l.attestation l.attestation.epochId).2.signersOf l.attestation.sovUsdPrice).card
  · rw [if_pos hcard] at hlookup
    refine ⟨fun hset => ?_, fun hset => ?_⟩
    · rw [sovPrice, hlookup] at hset
      cases hset
      exact h.sov_quorum hnone hopen hcard
    · rw [h.cbePrice_step hlookup] at hset
      exact h.cbe_quorum (by rw [cbePrice, hnone]; rfl) hset
  · rw [if_neg hcard] at hlookup
    refine ⟨fun hset => ?_, fun hset => ?_⟩
    · rw [sovPrice, hlookup] at hset
      cases hset
    · rw [cbePrice, hlookup] at hset
      cases hset

theorem setsWithQuorum : SetsWithQuorum X r l := by
  intro epoch price
  by_cases hne : epoch = l.attestation.epochId
  · subst hne
    have hopen : r.chain.oracleState.finalizedPrices.lookup l.attestation.epochId = none →
        (r.chain.oracleState.epochStateAt l.attestation.epochId).finalized = false → _ :=
      fun hnone hopen => h.setsWithQuorum_open hnone hopen price
    cases h.accepts with
    | final old hold hfinal _ _ =>
      have hlookup := OracleState.lookup_countAttestation_final (a := l.attestation) hold hfinal
      rw [← h.state_eq] at hlookup
      refine ⟨fun hset hnew => ?_, fun hset hnew => ?_⟩
      · rw [sovPrice, hlookup] at hset
        rw [sovPrice, hold] at hnew
        exact absurd hset hnew
      · -- a CBE price that is new was not decided before
        rw [h.cbePrice_step hlookup] at hset
        rw [h.cbePrice_eq hold] at hnew
        refine h.cbe_quorum ?_ hset
        rcases counted_cases r.chain.oracleState l.attestation l.attestation.epochId with
          ⟨-, hsame⟩ | ⟨_, -, hundecided, -, -, -⟩
        · exact absurd (hsame ▸ hset) hnew
        · exact (h.cbePrice_eq hold).trans hundecided
    | recorded hnone hfalse _ _ =>
      exact ⟨fun hset _ => (hopen hnone hfalse).1 hset, fun hset _ => (hopen hnone hfalse).2 hset⟩
    | fresh hnone hfalse _ _ =>
      exact ⟨fun hset _ => (hopen hnone hfalse).1 hset, fun hset _ => (hopen hnone hfalse).2 hset⟩
  · unfold sovPrice cbePrice
    rw [h.state_eq, OracleState.finalizedPrices_countAttestation_of_ne hne]
    exact ⟨fun hset hnew => absurd hset hnew, fun hset hnew => absurd hset hnew⟩

theorem keepsPrices : KeepsPrices X r l := by
  intro epoch price
  by_cases hne : epoch = l.attestation.epochId
  · subst hne
    cases hold : r.chain.oracleState.finalizedPrices.lookup l.attestation.epochId with
    | none =>
      unfold sovPrice cbePrice
      rw [hold]
      exact ⟨nofun, nofun⟩
    | some old =>
      have hfinal : (r.chain.oracleState.epochStateAt l.attestation.epochId).finalized = true := by
        rw [h.tallied.sov.closed, hold]
        rfl
      have hlookup := OracleState.lookup_countAttestation_final (a := l.attestation) hold hfinal
      rw [← h.state_eq] at hlookup
      refine ⟨fun hset => ?_, fun hset => ?_⟩
      · rw [sovPrice, hold] at hset
        rw [sovPrice, hlookup]
        exact hset
      · rw [h.cbePrice_eq hold] at hset
        rw [h.cbePrice_step hlookup]
        rcases counted_cases r.chain.oracleState l.attestation l.attestation.epochId with
          ⟨-, hsame⟩ | ⟨_, -, hundecided, -, -, -⟩
        · exact hsame.trans hset
        · exact absurd (hundecided.symm.trans hset) nofun
  · unfold sovPrice cbePrice
    rw [h.state_eq, OracleState.finalizedPrices_countAttestation_of_ne hne]
    exact ⟨id, id⟩

end CountedStep

/-! ## Whole runs -/

theorem sets_and_keeps_of_same
    (hprices : (r.step X l).chain.oracleState.finalizedPrices = r.chain.oracleState.finalizedPrices) :
    SetsWithQuorum X r l ∧ KeepsPrices X r l := by
  unfold SetsWithQuorum KeepsPrices sovPrice cbePrice
  rw [hprices]
  exact ⟨fun _ _ => ⟨fun hset hnew => absurd hset hnew, fun hset hnew => absurd hset hnew⟩, fun _ _ => ⟨id, id⟩⟩

theorem Tallied.sets_and_keeps (h : Tallied X r) (hcond : CountsCurrent X r l) :
    SetsWithQuorum X r l ∧ KeepsPrices X r l := by
  cases r.steps X l with
  | slashed hprices hvotes hcommittee => exact sets_and_keeps_of_same hprices
  | ignored hstate => exact sets_and_keeps_of_same (by rw [hstate])
  | counted hepoch hadmits hstate =>
    have haccepts := h.sov.accepts hadmits
    have hcounted : CountedStep X r l := ⟨h, hcond hepoch, hepoch, haccepts, hcond.stands hepoch haccepts, hstate⟩
    exact ⟨hcounted.setsWithQuorum, hcounted.keepsPrices⟩

/-- Where only signed votes of current members count, a price has the votes of a threshold of them and never changes. -/
theorem oracle_prices_have_a_signed_quorum (X : OracleExternals) (c : OracleChain)
    (hvotes : c.oracleState.epochState = ∅) (hprices : c.oracleState.finalizedPrices = ∅)
    (submissions : List Submission) (hcond : Along (step X) (CountsCurrent X) ⟨c, []⟩ submissions) :
    Along (step X) (SetsWithQuorum X) ⟨c, []⟩ submissions ∧ Along (step X) (KeepsPrices X) ⟨c, []⟩ submissions := by
  have hstart : Tallied X ⟨c, []⟩ := ⟨.empty hvotes hprices, .empty hvotes hprices⟩
  have htallied := hcond.with_invariant (fun _ _ hcond h => Tallied.step h hcond) hstart
  exact ⟨htallied.mono fun _ _ h => (h.2.sets_and_keeps h.1).1, htallied.mono fun _ _ h => (h.2.sets_and_keeps h.1).2⟩

theorem HasQuorum.card_le {names : OraclePriceAttestation → Prop} [DecidablePred names] {epoch : Nat}
    (h : r.HasQuorum X epoch names) :
    r.chain.oracleState.committee.threshold ≤ (r.chain.oracleState.committee.members.filter fun k =>
      Attested X.verifySignature (r.chain.resolveSigningPubkey X) r.processed epoch names k).card := by
  obtain ⟨signers, hsub, hcard, hattested⟩ := h
  exact Nat.le_trans hcard (Finset.card_le_card fun k hk => Finset.mem_filter.mpr ⟨hsub hk, hattested k hk⟩)

def fourMembers : OracleChain where
  oracleState := {
    committee := { members := {0, 1, 2, 3} }
    oracleSigningPubkeys := ((([0, 1, 2, 3] : List KeyId).foldl fun keys k => keys.insert k [1]) ∅) }

def signatureOfOne : OracleExternals where
  blake3Hash := fun _ => 0
  verifySignature := fun a _ => if a.signature = [1] then .ok () else .error .invalidSignature
  describe := fun _ => ""

def submit (k : KeyId) (sov : Nat) (cbe : Option Nat) (signature : List UInt8) : Submission :=
  ⟨⟨0, sov, cbe, 0, k, signature⟩, 0⟩

/-- One attestation is not signed. The third vote finalizes the SOV price, and the last attestation the CBE price. -/
def quorumOfThree : List Submission :=
  [submit 0 100 none [1], submit 3 99 none [], submit 1 100 (some 5) [1], submit 2 100 (some 5) [1],
    submit 0 100 (some 5) [1]]

theorem oracle_prices_have_a_signed_quorum_of_three :
    Along (step signatureOfOne) (CountsCurrent signatureOfOne) ⟨fourMembers, []⟩ quorumOfThree ∧
      (run (step signatureOfOne) ⟨fourMembers, []⟩ quorumOfThree).sovPrice 0 = some 100 ∧
      Along (step signatureOfOne) (SetsWithQuorum signatureOfOne) ⟨fourMembers, []⟩ quorumOfThree ∧
      Along (step signatureOfOne) (KeepsPrices signatureOfOne) ⟨fourMembers, []⟩ quorumOfThree := by
  have hcond : Along (step signatureOfOne) (CountsCurrent signatureOfOne) ⟨fourMembers, []⟩ quorumOfThree ∧
      (run (step signatureOfOne) ⟨fourMembers, []⟩ quorumOfThree).sovPrice 0 = some 100 := by
    decide +kernel
  exact ⟨hcond.1, hcond.2, oracle_prices_have_a_signed_quorum signatureOfOne fourMembers rfl rfl _ hcond.1⟩

/-- The first member votes twice and is slashed, before the third vote for the price comes. -/
def voteOfSlashed : List Submission :=
  [submit 0 100 none [1], submit 1 100 none [1], submit 0 101 none [1], submit 2 100 none [1]]

/-- Two CBE prices without a signature come in the names of members that have voted. -/
def unsignedCbeVotes : List Submission :=
  [submit 0 100 none [1], submit 1 100 none [1], submit 0 100 (some 5) [], submit 1 100 (some 5) [],
    submit 2 100 (some 5) [1]]

theorem prices_without_signed_quorum :
    ((run (step signatureOfOne) ⟨fourMembers, []⟩ voteOfSlashed).sovPrice 0 = some 100 ∧
      ¬ (run (step signatureOfOne) ⟨fourMembers, []⟩ voteOfSlashed).HasQuorum signatureOfOne 0 (·.sovUsdPrice = 100)) ∧
    (run (step signatureOfOne) ⟨fourMembers, []⟩ unsignedCbeVotes).cbePrice 0 = some 5 ∧
      ¬ (run (step signatureOfOne) ⟨fourMembers, []⟩ unsignedCbeVotes).HasQuorum signatureOfOne 0
        (·.cbeUsdPrice = some 5) := by
  have hprices : (run (step signatureOfOne) ⟨fourMembers, []⟩ voteOfSlashed).sovPrice 0 = some 100 ∧
      (run (step signatureOfOne) ⟨fourMembers, []⟩ unsignedCbeVotes).cbePrice 0 = some 5 := by
    decide +kernel
  refine ⟨⟨hprices.1, fun h => ?_⟩, hprices.2, fun h => ?_⟩
  · exact absurd h.card_le (by decide +kernel)
  · exact absurd h.card_le (by decide +kernel)

end OracleRun

end SovereignNetwork.Oracle
