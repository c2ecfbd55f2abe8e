import SovereignNetwork.Oracle.Lemmas.Admission

/-!
# The votes of an epoch
-/

namespace SovereignNetwork.Oracle

open Lib

/-! ## One record -/

namespace OracleEpochState

variable {e : OracleEpochState} {a : OraclePriceAttestation} {threshold : Nat}

theorem recordSov_of_finalized (h : e.finalized = true) : e.recordSov a = e := if_pos h

theorem signersOf_recordSov (h : e.finalized = false) (price : Nat) :
    (e.recordSov a).signersOf price =
      if price = a.sovUsdPrice then insert a.validatorPubkey (e.signersOf price) else e.signersOf price := by
  simp only [recordSov, h, Bool.false_eq_true, if_false, signersOf, HashMap.lookup_insert_eq_ite]
  split
  · next hprice => rw [hprice, Option.getD_some]
  · rfl

theorem signerPrices_recordSov (h : e.finalized = false) (k : KeyId) :
    (e.recordSov a).signerPrices.lookup k =
      if k = a.validatorPubkey then some a.sovUsdPrice else e.signerPrices.lookup k := by
  simp only [recordSov, h, Bool.false_eq_true, if_false, HashMap.lookup_insert_eq_ite]

@[simp] theorem cbeSignersOf_recordSov (price : Nat) : (e.recordSov a).cbeSignersOf price = e.cbeSignersOf price := by
  unfold recordSov
  split <;> rfl

@[simp] theorem winningCbePrice_recordSov : (e.recordSov a).winningCbePrice = e.winningCbePrice := by
  unfold recordSov
  split <;> rfl

@[simp] theorem finalized_recordSov : (e.recordSov a).finalized = e.finalized := by
  unfold recordSov
  split <;> rfl

@[simp] theorem signersOf_recordCbe (price : Nat) : (e.recordCbe a threshold).2.signersOf price = e.signersOf price := by
  unfold recordCbe
  split <;> rfl

@[simp] theorem signerPrices_recordCbe : (e.recordCbe a threshold).2.signerPrices = e.signerPrices := by
  unfold recordCbe
  split <;> rfl

@[simp] theorem finalized_recordCbe : (e.recordCbe a threshold).2.finalized = e.finalized := by
  unfold recordCbe
  split <;> rfl

theorem cbeSignersOf_recordCbe (price : Nat) :
    (e.recordCbe a threshold).2.cbeSignersOf price =
      if a.cbeUsdPrice = some price then insert a.validatorPubkey (e.cbeSignersOf price) else e.cbeSignersOf price := by
  unfold recordCbe
  split
  · next hcbe => rw [if_neg (by rw [hcbe]; exact nofun)]
  · next cbe hcbe =>
    simp only [cbeSignersOf, HashMap.lookup_insert_eq_ite, hcbe, Option.some.injEq]
    by_cases hprice : price = cbe
    · rw [if_pos hprice, if_pos hprice.symm, hprice, Option.getD_some]
    · rw [if_neg hprice, if_neg (Ne.symm hprice)]

theorem recordCbe_cases (e : OracleEpochState) (a : OraclePriceAttestation) (threshold : Nat) :
    (e.recordCbe a threshold).1 = false ∧ (e.recordCbe a threshold).2.winningCbePrice = e.winningCbePrice ∨
      ∃ cbe, a.cbeUsdPrice = some cbe ∧ e.winningCbePrice = none ∧ (e.recordCbe a threshold).1 = true ∧
        (e.recordCbe a threshold).2.winningCbePrice = some cbe ∧
        threshold ≤ ((e.recordCbe a threshold).2.cbeSignersOf cbe).card := by
  cases hcbe : a.cbeUsdPrice with
  | none => exact .inl ⟨by rw [recordCbe, hcbe], by rw [recordCbe, hcbe]⟩
  | some cbe =>
    cases hdecides : (e.recordCbe a threshold).1 with
    | false =>
      refine .inl ⟨rfl, ?_⟩
      simp only [recordCbe, hcbe] at hdecides ⊢
      rw [hdecides]
      rfl
    | true =>
      refine .inr ⟨cbe, rfl, ?_, rfl, ?_, ?_⟩
      · simp only [recordCbe, hcbe, Bool.and_eq_true, Option.isNone_iff_eq_none] at hdecides
        exact hdecides.1
      · simp only [recordCbe, hcbe] at hdecides ⊢
        rw [hdecides]
        rfl
      · rw [cbeSignersOf_recordCbe, if_pos hcbe]
        simp only [recordCbe, hcbe, Bool.and_eq_true, decide_eq_true_eq] at hdecides
        exact hdecides.2

end OracleEpochState

namespace OracleState

variable {s : OracleState} {a : OraclePriceAttestation} {epoch : Nat}

/-- The votes of the epoch with the attestation among them. -/
def counted (s : OracleState) (a : OraclePriceAttestation) (epoch : Nat) : Bool × OracleEpochState :=
  ((s.epochStateAt epoch).recordSov a).recordCbe a s.committee.threshold

theorem epochStateAt_insert (s : OracleState) (epoch epoch' : Nat) (e : OracleEpochState)
    (prices : HashMap Nat FinalizedOraclePrice) :
    epochStateAt { s with epochState := s.epochState.insert epoch e, finalizedPrices := prices } epoch' =
      if epoch' = epoch then e else s.epochStateAt epoch' := by
  simp only [epochStateAt, HashMap.lookup_insert_eq_ite]
  split <;> rfl

theorem countAttestation_open (hnone : s.finalizedPrices.lookup epoch = none)
    (hopen : (s.epochStateAt epoch).finalized = false) :
    s.countAttestation a epoch =
      if s.committee.threshold ≤ ((s.counted a epoch).2.signersOf a.sovUsdPrice).card then
        (.ok (.finalized ⟨epoch, a.sovUsdPrice, (s.counted a epoch).2.winningCbePrice⟩), { s with
          epochState := s.epochState.insert epoch
            { (s.counted a epoch).2 with finalized := true, winningPrice := some a.sovUsdPrice }
          finalizedPrices := s.finalizedPrices.insert epoch
            ⟨epoch, a.sovUsdPrice, (s.counted a epoch).2.winningCbePrice⟩ })
      else (.ok .accepted, { s with epochState := s.epochState.insert epoch (s.counted a epoch).2 }) := by
  have hcounted : (s.counted a epoch).2.finalized = false := by simp [counted, hopen]
  unfold countAttestation
  unfold counted at hcounted ⊢
  simp only [hcounted, Bool.false_eq_true, not_false_eq_true, true_and, hnone, false_and, if_false]

theorem countAttestation_final (hfinal : (s.epochStateAt epoch).finalized = true) :
    s.countAttestation a epoch = (.ok .accepted, { s with
      epochState := s.epochState.insert epoch (s.counted a epoch).2
      finalizedPrices :=
        if (s.counted a epoch).1 then
          HashMap.modify epoch (fun finalized =>
            { finalized with cbeUsdPrice := (s.counted a epoch).2.winningCbePrice.or finalized.cbeUsdPrice })
            s.finalizedPrices
        else s.finalizedPrices }) := by
  have hcounted : (s.counted a epoch).2.finalized = true := by simp [counted, hfinal]
  unfold countAttestation
  unfold counted at hcounted ⊢
  simp only [hcounted, not_true_eq_false, false_and, if_false, true_and]

theorem countAttestation_frame (s : OracleState) (a : OraclePriceAttestation) (epoch : Nat) :
    ∃ final winning prices, (s.countAttestation a epoch).2 = { s with
      epochState := s.epochState.insert epoch
        { (s.counted a epoch).2 with finalized := final, winningPrice := winning }
      finalizedPrices := prices } := by
  unfold countAttestation counted
  dsimp only
  split
  · split
    · split
      · exact ⟨true, some a.sovUsdPrice, s.finalizedPrices, rfl⟩
      · exact ⟨true, some a.sovUsdPrice, s.finalizedPrices, rfl⟩
    · exact ⟨true, some a.sovUsdPrice, _, rfl⟩
  · exact ⟨_, _, _, rfl⟩

theorem view_countAttestation {α : Type} (view : OracleEpochState → α)
    (hview : ∀ e final winning, view { e with finalized := final, winningPrice := winning } = view e) (epoch' : Nat) :
    view ((s.countAttestation a epoch).2.epochStateAt epoch') =
      if epoch' = epoch then view (s.counted a epoch).2 else view (s.epochStateAt epoch') := by
  obtain ⟨final, winning, prices, hcount⟩ := countAttestation_frame s a epoch
  rw [hcount, epochStateAt_insert]
  split
  · rw [hview]
  · rfl

theorem finalizedPrices_countAttestation_of_ne {epoch' : Nat} (hne : epoch' ≠ epoch) :
    (s.countAttestation a epoch).2.finalizedPrices.lookup epoch' = s.finalizedPrices.lookup epoch' := by
  unfold countAttestation
  dsimp only
  split
  · split
    · split <;> rfl
    · rw [HashMap.lookup_insert_eq_ite, if_neg hne]
  · split
    · rw [HashMap.lookup_modify, if_neg hne]
    · rfl

theorem lookup_countAttestation_open (hnone : s.finalizedPrices.lookup epoch = none)
    (hopen : (s.epochStateAt epoch).finalized = false) :
    (s.countAttestation a epoch).2.finalizedPrices.lookup epoch =
      if s.committee.threshold ≤ ((s.counted a epoch).2.signersOf a.sovUsdPrice).card then
        some ⟨epoch, a.sovUsdPrice, (s.counted a epoch).2.winningCbePrice⟩
      else none := by
  rw [countAttestation_open hnone hopen]
  split
  · rw [HashMap.lookup_insert_eq_ite, if_pos rfl]
  · exact hnone

theorem lookup_countAttestation_final {price : FinalizedOraclePrice}
    (hprice : s.finalizedPrices.lookup epoch = some price) (hfinal : (s.epochStateAt epoch).finalized = true) :
    (s.countAttestation a epoch).2.finalizedPrices.lookup epoch =
      some { price with cbeUsdPrice :=
        if (s.counted a epoch).1 then (s.counted a epoch).2.winningCbePrice.or price.cbeUsdPrice
        else price.cbeUsdPrice } := by
  rw [countAttestation_final hfinal]
  dsimp only
  split
  · rw [HashMap.lookup_modify, if_pos rfl, hprice]
    rfl
  · exact hprice

theorem committee_processAttestation {verify : VerifySignature} {resolve : ResolvePubkey} :
    (s.processAttestation verify resolve a epoch).2.committee = s.committee := by
  rcases s.processAttestation_cases verify resolve a epoch with hsame | ⟨-, -, hcount⟩
  · rw [hsame]
  · obtain ⟨_, _, _, hframe⟩ := s.countAttestation_frame a epoch
    rw [hcount, hframe]

end OracleState

/-! ## Votes and the attestations behind them -/

/-- The validator has a processed, signed attestation for the epoch that meets `names`. -/
def Attested (verify : VerifySignature) (resolve : ResolvePubkey) (processed : List OraclePriceAttestation)
    (epoch : Nat) (names : OraclePriceAttestation → Prop) (k : KeyId) : Prop :=
  ∃ a ∈ processed, a.epochId = epoch ∧ names a ∧ a.validatorPubkey = k ∧ Signed verify resolve a

instance (verify : VerifySignature) (resolve : ResolvePubkey) (processed : List OraclePriceAttestation)
    (epoch : Nat) (names : OraclePriceAttestation → Prop) [DecidablePred names] (k : KeyId) :
    Decidable (Attested verify resolve processed epoch names k) :=
  inferInstanceAs (Decidable (∃ a ∈ processed, _))

/-- The votes on the SOV price are attested, and an epoch is closed exactly if it has a price. -/
structure SovTally (verify : VerifySignature) (resolve : ResolvePubkey) (processed : List OraclePriceAttestation)
    (s : OracleState) : Prop where
  closed : ∀ epoch, (s.epochStateAt epoch).finalized = (s.finalizedPrices.lookup epoch).isSome
  attested : ∀ epoch price, ∀ k ∈ (s.epochStateAt epoch).signersOf price,
    Attested verify resolve processed epoch (·.sovUsdPrice = price) k
  recorded : ∀ epoch k price, (s.epochStateAt epoch).signerPrices.lookup k = some price →
    k ∈ (s.epochStateAt epoch).signersOf price

section

variable {verify : VerifySignature} {resolve : ResolvePubkey} {processed : List OraclePriceAttestation}
  {s : OracleState} {a : OraclePriceAttestation} {epoch : Nat} {names : OraclePriceAttestation → Prop} {k : KeyId}

theorem Attested.cons (a : OraclePriceAttestation) (h : Attested verify resolve processed epoch names k) :
    Attested verify resolve (a :: processed) epoch names k := by
  obtain ⟨b, hb, h⟩ := h
  exact ⟨b, List.mem_cons_of_mem _ hb, h⟩

theorem Attested.head (hepoch : a.epochId = epoch) (hnames : names a) (hsigned : Signed verify resolve a) :
    Attested verify resolve (a :: processed) epoch names a.validatorPubkey :=
  ⟨a, List.mem_cons_self, hepoch, hnames, rfl, hsigned⟩

theorem SovTally.empty (hstate : s.epochState = ∅) (hprices : s.finalizedPrices = ∅) :
    SovTally verify resolve [] s := by
  have hempty : ∀ epoch, s.epochStateAt epoch = {} := fun epoch => by
    rw [OracleState.epochStateAt, hstate]
    rfl
  refine ⟨fun epoch => ?_, fun epoch price k hk => ?_, fun epoch k price hk => ?_⟩
  · rw [hempty, hprices]
    rfl
  · rw [hempty] at hk
    exact absurd hk (Finset.notMem_empty _)
  · rw [hempty] at hk
    cases hk

/-- The ways in which an attestation is accepted, where the votes are as they should be: on the CBE price of an epoch
that has a price, or in an open epoch. -/
inductive SovTally.Accepts (verify : VerifySignature) (resolve : ResolvePubkey) (s : OracleState)
    (a : OraclePriceAttestation) (epoch : Nat) : Prop
  | final (price : FinalizedOraclePrice) (hprice : s.finalizedPrices.lookup epoch = some price)
      (hfinal : (s.epochStateAt epoch).finalized = true) (hmember : a.validatorPubkey ∈ s.committee.members)
      (hsigned : Signed verify resolve a)
  | recorded (hnone : s.finalizedPrices.lookup epoch = none) (hopen : (s.epochStateAt epoch).finalized = false)
      (hrecorded : a.validatorPubkey ∈ (s.epochStateAt epoch).signersOf a.sovUsdPrice)
      (hlookup : (s.epochStateAt epoch).signerPrices.lookup a.validatorPubkey = some a.sovUsdPrice)
  | fresh (hnone : s.finalizedPrices.lookup epoch = none) (hopen : (s.epochStateAt epoch).finalized = false)
      (hmember : a.validatorPubkey ∈ s.committee.members) (hsigned : Signed verify resolve a)

theorem SovTally.accepts (h : SovTally verify resolve processed s) (hadmits : s.Admits verify resolve a epoch) :
    Accepts verify resolve s a epoch := by
  have hclosed := h.closed epoch
  cases hadmits with
  | finalized price hprice hsov hcbe hmember hsigned =>
    exact .final price hprice (by rw [hclosed, hprice]; rfl) hmember hsigned
  | decided hnone hfinal hwinning hcbe hmember hsigned =>
    rw [hnone, hfinal] at hclosed
    cases hclosed
  | recorded hnone hopen hrecorded hcbe => exact .recorded hnone hopen (h.recorded _ _ _ hrecorded) hrecorded
  | fresh hnone hopen hfresh hmember hsigned => exact .fresh hnone hopen hmember hsigned

theorem SovTally.attested_counted (h : SovTally verify resolve processed s) (hepoch : a.epochId = epoch)
    (haccepts : Accepts verify resolve s a epoch) {price : Nat} (hk : k ∈ (s.counted a epoch).2.signersOf price) :
    Attested verify resolve (a :: processed) epoch (·.sovUsdPrice = price) k := by
  rw [OracleState.counted, OracleEpochState.signersOf_recordCbe] at hk
  have hopen : (s.epochStateAt epoch).finalized = false → Signed verify resolve a ∨
      a.validatorPubkey ∈ (s.epochStateAt epoch).signersOf a.sovUsdPrice →
      Attested verify resolve (a :: processed) epoch (·.sovUsdPrice = price) k := by
    intro hopen hsource
    rw [OracleEpochState.signersOf_recordSov hopen] at hk
    split at hk
    · next hprice =>
      rcases Finset.mem_insert.mp hk with rfl | hk
      · rcases hsource with hsigned | hrecorded
        · exact .head hepoch hprice.symm hsigned
        · exact (h.attested epoch price _ (hprice ▸ hrecorded)).cons a
      · exact (h.attested epoch price k hk).cons a
    · exact (h.attested epoch price k hk).cons a
  cases haccepts with
  | final price hprice hfinal hmember hsigned =>
    rw [OracleEpochState.recordSov_of_finalized hfinal] at hk
    exact (h.attested _ _ _ hk).cons a
  | recorded hnone hfalse hrecorded hlookup => exact hopen hfalse (.inr hrecorded)
  | fresh hnone hfalse hmember hsigned => exact hopen hfalse (.inl hsigned)

theorem SovTally.recorded_counted (h : SovTally verify resolve processed s) {price : Nat}
    (hk : (s.counted a epoch).2.signerPrices.lookup k = some price) : k ∈ (s.counted a epoch).2.signersOf price := by
  rw [OracleState.counted, OracleEpochState.signerPrices_recordCbe] at hk
  rw [OracleState.counted, OracleEpochState.signersOf_recordCbe]
  cases hfinal : (s.epochStateAt epoch).finalized with
  | true =>
    rw [OracleEpochState.recordSov_of_finalized hfinal] at hk ⊢
    exact h.recorded _ _ _ hk
  | false =>
    rw [OracleEpochState.signerPrices_recordSov hfinal] at hk
    rw [OracleEpochState.signersOf_recordSov hfinal]
    split at hk
    · next hkey =>
      cases hk
      rw [if_pos rfl, hkey]
      exact Finset.mem_insert_self _ _
    · split
      · exact Finset.mem_insert_of_mem (h.recorded _ _ _ hk)
      · exact h.recorded _ _ _ hk

theorem closed_of_open (hnone : s.finalizedPrices.lookup epoch = none)
    (hopen : (s.epochStateAt epoch).finalized = false) :
    ((s.countAttestation a epoch).2.epochStateAt epoch).finalized =
      ((s.countAttestation a epoch).2.finalizedPrices.lookup epoch).isSome := by
  rw [OracleState.lookup_countAttestation_open hnone hopen, OracleState.countAttestation_open hnone hopen]
  split
  · rw [OracleState.epochStateAt_insert, if_pos rfl]
    rfl
  · have hcounted : (s.counted a epoch).2.finalized = false := by simp [OracleState.counted, hopen]
    exact (congrArg _ (OracleState.epochStateAt_insert s epoch epoch _ _)).trans (by rw [if_pos rfl, hcounted]; rfl)

theorem SovTally.closed_countAttestation (h : SovTally verify resolve processed s)
    (haccepts : Accepts verify resolve s a epoch) (epoch' : Nat) :
    ((s.countAttestation a epoch).2.epochStateAt epoch').finalized =
      ((s.countAttestation a epoch).2.finalizedPrices.lookup epoch').isSome := by
  by_cases hne : epoch' = epoch
  · subst hne
    cases haccepts with
    | final price hprice hfinal hmember hsigned =>
      have hcounted : (s.counted a epoch').2.finalized = true := by simp [OracleState.counted, hfinal]
      rw [OracleState.lookup_countAttestation_final hprice hfinal, OracleState.countAttestation_final hfinal,
        OracleState.epochStateAt_insert, if_pos rfl, hcounted]
      rfl
    | recorded hnone hopen hrecorded hlookup => exact closed_of_open hnone hopen
    | fresh hnone hopen hmember hsigned => exact closed_of_open hnone hopen
  · obtain ⟨final, winning, prices, hcount⟩ := s.countAttestation_frame a epoch
    rw [OracleState.finalizedPrices_countAttestation_of_ne hne, hcount, OracleState.epochStateAt_insert, if_neg hne]
    exact h.closed epoch'

theorem SovTally.congr {s' : OracleState} (h : SovTally verify resolve processed s)
    (hstate : s'.epochState = s.epochState) (hprices : s'.finalizedPrices = s.finalizedPrices) :
    SovTally verify resolve processed s' := by
  have hvotes : s'.epochStateAt = s.epochStateAt := by
    unfold OracleState.epochStateAt
    rw [hstate]
  exact ⟨by rw [hvotes, hprices]; exact h.closed, by rw [hvotes]; exact h.attested, by rw [hvotes]; exact h.recorded⟩

theorem SovTally.cons (a : OraclePriceAttestation) (h : SovTally verify resolve processed s) :
    SovTally verify resolve (a :: processed) s :=
  ⟨h.closed, fun epoch price k hk => (h.attested epoch price k hk).cons a, h.recorded⟩

theorem SovTally.countAttestation (h : SovTally verify resolve processed s) (hepoch : a.epochId = epoch)
    (haccepts : Accepts verify resolve s a epoch) :
    SovTally verify resolve (a :: processed) (s.countAttestation a epoch).2 := by
  refine ⟨h.closed_countAttestation haccepts, fun epoch' price k hk => ?_, fun epoch' k price hk => ?_⟩
  · rw [OracleState.view_countAttestation (·.signersOf price) fun _ _ _ => rfl] at hk
    split at hk
    · next heq => exact heq ▸ h.attested_counted hepoch haccepts hk
    · exact (h.attested _ _ _ hk).cons a
  · rw [OracleState.view_countAttestation (·.signerPrices) fun _ _ _ => rfl] at hk
    rw [OracleState.view_countAttestation (·.signersOf price) fun _ _ _ => rfl]
    split at hk
    · next heq =>
      rw [if_pos heq]
      exact h.recorded_counted hk
    · next hne =>
      rw [if_neg hne]
      exact h.recorded _ _ _ hk

theorem SovTally.processAttestation (h : SovTally verify resolve processed s) (a : OraclePriceAttestation)
    (epoch : Nat) :
    SovTally verify resolve (a :: processed) (s.processAttestation verify resolve a epoch).2 := by
  rcases s.processAttestation_cases verify resolve a epoch with hsame | ⟨hepoch, hadmits, hcount⟩
  · rw [hsame]
    exact h.cons a
  · rw [hcount]
    exact h.countAttestation hepoch (h.accepts hadmits)

end

end SovereignNetwork.Oracle
