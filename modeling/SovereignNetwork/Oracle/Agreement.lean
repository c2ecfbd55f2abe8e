import Mathlib.Order.Interval.Finset.Nat
import SovereignNetwork.Lib.Quorum
import SovereignNetwork.Lib.Run
import SovereignNetwork.Oracle.Lemmas.Tally

/-!
# Agreement on prices

Nodes with the same committee process signed attestations in any order and any number of times.
-/

namespace SovereignNetwork.Oracle

open Lib

/-! ## Nodes -/

/-- A committee with fewer than a third of Byzantine members. An honest member signs one SOV price for an epoch. -/
structure OracleNetwork where
  verify : VerifySignature
  members : Finset KeyId
  byzantine : Finset KeyId
  signs : KeyId → OraclePriceAttestation → Prop
  few : 3 * byzantine.card < members.card
  honest : ∀ k ∈ members, k ∉ byzantine → ∀ a b, signs k a → signs k b → a.epochId = b.epochId →
    a.sovUsdPrice = b.sovUsdPrice

/-- A node of the network, before it has processed anything. What verifies as an honest member's was signed by it. -/
structure OracleNode (N : OracleNetwork) where
  start : OracleState
  resolve : ResolvePubkey
  members_eq : start.committee.members = N.members
  no_votes : start.epochState = ∅
  no_prices : start.finalizedPrices = ∅
  unforgeable : ∀ a, a.validatorPubkey ∈ N.members → a.validatorPubkey ∉ N.byzantine → Signed N.verify resolve a →
    N.signs a.validatorPubkey a

/-- An attestation, and the epoch that is current when the node processes it. -/
structure Delivery where
  attestation : OraclePriceAttestation
  currentEpoch : Nat

structure Processing where
  state : OracleState
  processed : List OraclePriceAttestation := []

namespace OracleNode

variable {N : OracleNetwork} (n : OracleNode N)

def step (p : Processing) (d : Delivery) : Processing :=
  ⟨(p.state.processAttestation N.verify n.resolve d.attestation d.currentEpoch).2, d.attestation :: p.processed⟩

/-- The SOV price of an epoch, once the deliveries are processed. -/
def finalizes (deliveries : List Delivery) (epoch : Nat) : Option Nat :=
  ((run n.step ⟨n.start, []⟩ deliveries).state.finalizedPrices.lookup epoch).map (·.sovUsdPrice)

/-! ## A price has a quorum -/

/-- All votes are attested votes of members, and a price has as many as the threshold asks for. -/
structure Tallied (p : Processing) : Prop where
  tally : SovTally N.verify n.resolve p.processed p.state
  members_eq : p.state.committee.members = N.members
  subset : ∀ epoch price, (p.state.epochStateAt epoch).signersOf price ⊆ N.members
  quorum : ∀ epoch price, p.state.finalizedPrices.lookup epoch = some price →
    p.state.committee.threshold ≤ ((p.state.epochStateAt epoch).signersOf price.sovUsdPrice).card

variable {n} {p : Processing} {a : OraclePriceAttestation} {epoch : Nat}

theorem Tallied.subset_counted (h : n.Tallied p) (haccepts : SovTally.Accepts N.verify n.resolve p.state a epoch)
    (price : Nat) : (p.state.counted a epoch).2.signersOf price ⊆ N.members := by
  rw [OracleState.counted, OracleEpochState.signersOf_recordCbe]
  have hopen : (p.state.epochStateAt epoch).finalized = false → a.validatorPubkey ∈ N.members →
      ((p.state.epochStateAt epoch).recordSov a).signersOf price ⊆ N.members := by
    intro hopen hmember
    rw [OracleEpochState.signersOf_recordSov hopen]
    split
    · exact Finset.insert_subset hmember (h.subset epoch price)
    · exact h.subset epoch price
  cases haccepts with
  | final _ _ hfinal _ _ =>
    rw [OracleEpochState.recordSov_of_finalized hfinal]
    exact h.subset epoch price
  | recorded _ hfalse hrecorded _ => exact hopen hfalse (h.subset _ _ hrecorded)
  | fresh _ hfalse hmember _ => exact hopen hfalse (h.members_eq ▸ hmember)

theorem Tallied.quorum_countAttestation (h : n.Tallied p)
    (haccepts : SovTally.Accepts N.verify n.resolve p.state a epoch) {epoch' : Nat} {price : FinalizedOraclePrice}
    (hprice : (p.state.countAttestation a epoch).2.finalizedPrices.lookup epoch' = some price) :
    p.state.committee.threshold ≤
      (((p.state.countAttestation a epoch).2.epochStateAt epoch').signersOf price.sovUsdPrice).card := by
  rw [OracleState.view_countAttestation (·.signersOf price.sovUsdPrice) fun _ _ _ => rfl]
  by_cases hne : epoch' = epoch
  · subst hne
    rw [if_pos rfl]
    have hopen : p.state.finalizedPrices.lookup epoch' = none → (p.state.epochStateAt epoch').finalized = false →
        p.state.committee.threshold ≤ ((p.state.counted a epoch').2.signersOf price.sovUsdPrice).card := by
      intro hnone hopen
      rw [OracleState.lookup_countAttestation_open hnone hopen] at hprice
      split at hprice
      · next hle =>
        cases hprice
        exact hle
      · cases hprice
    cases haccepts with
    | final old hold hfinal _ _ =>
      rw [OracleState.lookup_countAttestation_final hold hfinal] at hprice
      cases hprice
      rw [OracleState.counted, OracleEpochState.signersOf_recordCbe, OracleEpochState.recordSov_of_finalized hfinal]
      exact h.quorum _ old hold
    | recorded hnone hfalse _ _ => exact hopen hnone hfalse
    | fresh hnone hfalse _ _ => exact hopen hnone hfalse
  · rw [OracleState.finalizedPrices_countAttestation_of_ne hne] at hprice
    rw [if_neg hne]
    exact h.quorum _ _ hprice

theorem Tallied.step (h : n.Tallied p) (d : Delivery) : n.Tallied (n.step p d) := by
  have htally := h.tally.processAttestation d.attestation d.currentEpoch
  have hcommittee : (n.step p d).state.committee = p.state.committee := OracleState.committee_processAttestation
  rcases p.state.processAttestation_cases N.verify n.resolve d.attestation d.currentEpoch with
    hsame | ⟨-, hadmits, hcount⟩
  · have hstate : (n.step p d).state = p.state := hsame
    exact ⟨htally, hstate ▸ h.members_eq, hstate ▸ h.subset, hstate ▸ h.quorum⟩
  · have haccepts := h.tally.accepts hadmits
    have hstate : (n.step p d).state = (p.state.countAttestation d.attestation d.currentEpoch).2 :=
      congrArg Prod.snd hcount
    refine ⟨htally, by rw [hcommittee, h.members_eq], fun epoch price => ?_, fun epoch price hprice => ?_⟩
    · rw [hstate, OracleState.view_countAttestation (·.signersOf price) fun _ _ _ => rfl]
      split
      · exact h.subset_counted haccepts price
      · exact h.subset epoch price
    · rw [hcommittee]
      rw [hstate] at hprice ⊢
      exact h.quorum_countAttestation haccepts hprice

theorem Tallied.run (n : OracleNode N) (deliveries : List Delivery) :
    n.Tallied (run n.step ⟨n.start, []⟩ deliveries) := by
  have hempty : ∀ epoch price, (n.start.epochStateAt epoch).signersOf price = ∅ := fun epoch price => by
    rw [OracleState.epochStateAt, n.no_votes]
    rfl
  have hany : Along n.step (fun _ _ => True) ⟨n.start, []⟩ deliveries := .of_forall (fun _ _ => trivial) _ _
  refine hany.invariant (fun _ d _ h => h.step d) ?_
  refine ⟨.empty n.no_votes n.no_prices, n.members_eq, fun epoch price => ?_, fun epoch price hprice => ?_⟩
  · rw [hempty]
    exact Finset.empty_subset _
  · have hnone : n.start.finalizedPrices.lookup epoch = none := by
      rw [n.no_prices]
      rfl
    rw [hnone] at hprice
    cases hprice

/-! ## Two quorums meet in an honest member -/

theorem exists_quorum {deliveries : List Delivery} {price : Nat} (h : n.finalizes deliveries epoch = some price) :
    ∃ signers ⊆ N.members, n.start.committee.threshold ≤ signers.card ∧
      ∀ k ∈ signers, k ∉ N.byzantine → ∃ a, N.signs k a ∧ a.epochId = epoch ∧ a.sovUsdPrice = price := by
  obtain ⟨finalized, hfinalized, rfl⟩ := Option.map_eq_some_iff.mp h
  have htallied := Tallied.run n deliveries
  refine ⟨_, htallied.subset epoch finalized.sovUsdPrice, ?_, fun k hk hhonest => ?_⟩
  · have hquorum := htallied.quorum _ _ hfinalized
    rwa [OracleCommitteeState.threshold, htallied.members_eq, ← n.members_eq] at hquorum
  · obtain ⟨a, -, hepoch, hprice, rfl, hsigned⟩ := htallied.tally.attested _ _ k hk
    exact ⟨a, n.unforgeable a (htallied.subset _ _ hk) hhonest hsigned, hepoch, hprice⟩

theorem two_thirds_of_threshold (n : OracleNode N) (hfits : 2 * N.members.card / 3 + 1 < 2 ^ 16) {signers : Finset KeyId}
    (h : n.start.committee.threshold ≤ signers.card) :
    MeetsRatio (2 * N.members.card + 1) (3 * N.members.card) signers.card N.members.card := by
  have hpos : 0 < N.members.card := Nat.lt_of_le_of_lt (Nat.zero_le _) N.few
  rw [OracleCommitteeState.threshold, n.members_eq, Nat.min_eq_left (by omega)] at h
  refine ⟨by omega, ?_⟩
  calc N.members.card * (2 * N.members.card + 1) ≤ N.members.card * (3 * signers.card) :=
        Nat.mul_le_mul_left _ (by omega)
    _ = signers.card * (3 * N.members.card) := by ring

/-- No two nodes finalize different SOV prices for an epoch, as long as the threshold fits the `u16` it is kept in. -/
theorem oracle_agreement (n₁ n₂ : OracleNode N) (hfits : 2 * N.members.card / 3 + 1 < 2 ^ 16)
    (deliveries₁ deliveries₂ : List Delivery) {price₁ price₂ : Nat}
    (h₁ : n₁.finalizes deliveries₁ epoch = some price₁) (h₂ : n₂.finalizes deliveries₂ epoch = some price₂) :
    price₁ = price₂ := by
  obtain ⟨signers₁, hsub₁, hquorum₁, hsigned₁⟩ := exists_quorum h₁
  obtain ⟨signers₂, hsub₂, hquorum₂, hsigned₂⟩ := exists_quorum h₂
  obtain ⟨k, hk₁, hk₂, hhonest⟩ := MeetsRatio.exists_mem_inter (by omega) hsub₁ hsub₂
    (n₁.two_thirds_of_threshold hfits hquorum₁) (n₂.two_thirds_of_threshold hfits hquorum₂) N.few
  obtain ⟨a, ha, haepoch, rfl⟩ := hsigned₁ k hk₁ hhonest
  obtain ⟨b, hb, hbepoch, rfl⟩ := hsigned₂ k hk₂ hhonest
  exact N.honest k (hsub₁ hk₁) hhonest a b ha hb (haepoch.trans hbepoch.symm)

end OracleNode

def vote (epoch price : Nat) (k : KeyId) : OraclePriceAttestation := ⟨epoch, price, none, 0, k, []⟩

/-- Four members, of which the last one signs anything. -/
def smallNetwork : OracleNetwork where
  verify := fun a _ => if a.sovUsdPrice = 100 ∨ a.validatorPubkey = 3 then .ok () else .error .invalidSignature
  members := {0, 1, 2, 3}
  byzantine := {3}
  signs := fun k a => a.sovUsdPrice = 100 ∨ k = 3
  few := by decide
  honest := by
    intro k _ hhonest a b ha hb _
    have hk : k ≠ 3 := fun h => hhonest (Finset.mem_singleton.mpr h)
    exact (ha.resolve_right hk).trans (hb.resolve_right hk).symm

def smallNode (protocolConfig : OracleProtocolConfig) : OracleNode smallNetwork where
  start := { committee := { members := smallNetwork.members }, protocolConfig := protocolConfig }
  resolve := fun _ => some []
  members_eq := rfl
  no_votes := rfl
  no_prices := rfl
  unforgeable := by
    rintro a - - ⟨pubkey, -, hverify⟩
    by_contra hnot
    have herror : smallNetwork.verify a pubkey = .error .invalidSignature := if_neg hnot
    rw [herror] at hverify
    cases hverify

/-- A node of the strict protocol cannot finalize another price than a legacy node has. -/
theorem oracle_agreement_of_four :
    (smallNode {}).finalizes ([0, 1, 2].map fun k => ⟨vote 7 100 k, 7⟩) 7 = some 100 ∧
      (smallNode ⟨.v1StrictSpec, none⟩).finalizes ([2, 3, 2, 1].map fun k => ⟨vote 7 100 k, 7⟩) 7 = some 100 ∧
      ∀ deliveries price, (smallNode ⟨.v1StrictSpec, none⟩).finalizes deliveries 7 = some price → price = 100 := by
  have hfinal : (smallNode {}).finalizes ([0, 1, 2].map fun k => ⟨vote 7 100 k, 7⟩) 7 = some 100 ∧
      (smallNode ⟨.v1StrictSpec, none⟩).finalizes ([2, 3, 2, 1].map fun k => ⟨vote 7 100 k, 7⟩) 7 = some 100 := by
    decide +kernel
  refine ⟨hfinal.1, hfinal.2, fun deliveries price h => ?_⟩
  exact OracleNode.oracle_agreement (smallNode ⟨.v1StrictSpec, none⟩) (smallNode {}) (by decide) deliveries _ h hfinal.1

/-! ## As many votes as the threshold asks for -/

theorem epochId_vote (epoch price : Nat) (k : KeyId) : (vote epoch price k).epochId = epoch := rfl

theorem sovUsdPrice_vote (epoch price : Nat) (k : KeyId) : (vote epoch price k).sovUsdPrice = price := rfl

theorem validatorPubkey_vote (epoch price : Nat) (k : KeyId) : (vote epoch price k).validatorPubkey = k := rfl

/-- An open epoch in which the voters, and no one else, have voted for a price, under the legacy protocol. -/
structure Collecting (epoch price : Nat) (voters : List KeyId) (s : OracleState) : Prop where
  no_price : s.finalizedPrices.lookup epoch = none
  is_open : (s.epochStateAt epoch).finalized = false
  signers : (s.epochStateAt epoch).signersOf price = voters.toFinset
  others : ∀ k ∉ voters, (s.epochStateAt epoch).signerPrices.lookup k = none
  legacy : s.protocolConfig.isStrictSpecActive = false

section

variable {verify : VerifySignature} {resolve : ResolvePubkey} {s : OracleState} {epoch price : Nat}
  {voters : List KeyId} {k : KeyId}

theorem Collecting.precheck (h : Collecting epoch price voters s) (hnew : k ∉ voters)
    (hmember : k ∈ s.committee.members) (hsigned : Signed verify resolve (vote epoch price k)) :
    s.precheckAttestation verify resolve (vote epoch price k) epoch = .ok .accepted := by
  obtain ⟨pubkey, hresolve, hverify⟩ := hsigned
  have hothers := h.others k hnew
  have hseen : k ∉ (s.epochStateAt epoch).signerPrices.keys.toFinset := by
    rw [List.mem_toFinset]
    exact AList.lookup_eq_none.mp hothers
  have hvalid : s.validateAttestation verify resolve (vote epoch price k) epoch
      (s.epochStateAt epoch).signerPrices.keys.toFinset = .ok () := by
    simp only [OracleState.validateAttestation, guard_eq_ok, bind_eq_ok, okOr_eq_ok]
    exact ⟨not_not.mpr rfl, not_not.mpr hmember, hseen, pubkey, hresolve, hverify⟩
  simp only [OracleState.precheckAttestation, epochId_vote, ne_eq, not_true_eq_false, if_false, h.no_price, h.is_open,
    Bool.false_eq_true, validatorPubkey_vote, hothers, OracleState.precheckFresh, hvalid, h.legacy]
  rfl

theorem Collecting.signers_counted (h : Collecting epoch price voters s) (k : KeyId) :
    (s.counted (vote epoch price k) epoch).2.signersOf price = (k :: voters).toFinset := by
  rw [OracleState.counted, OracleEpochState.signersOf_recordCbe, OracleEpochState.signersOf_recordSov h.is_open,
    sovUsdPrice_vote, if_pos rfl, h.signers, List.toFinset_cons, validatorPubkey_vote]

theorem Collecting.more (h : Collecting epoch price voters s) (hnew : k ∉ voters) (hmember : k ∈ s.committee.members)
    (hsigned : Signed verify resolve (vote epoch price k))
    (hfew : (k :: voters).toFinset.card < s.committee.threshold) :
    Collecting epoch price (k :: voters) (s.processAttestation verify resolve (vote epoch price k) epoch).2 := by
  have hcount : (s.processAttestation verify resolve (vote epoch price k) epoch).2 =
      { s with epochState := s.epochState.insert epoch (s.counted (vote epoch price k) epoch).2 } := by
    have hcard : ¬ s.committee.threshold ≤
        ((s.counted (vote epoch price k) epoch).2.signersOf (vote epoch price k).sovUsdPrice).card := by
      rw [sovUsdPrice_vote, h.signers_counted]
      exact Nat.not_le.mpr hfew
    simp only [OracleState.processAttestation, h.precheck hnew hmember hsigned,
      OracleState.countAttestation_open h.no_price h.is_open, if_neg hcard]
  have hstate : OracleState.epochStateAt (s.processAttestation verify resolve (vote epoch price k) epoch).2 epoch =
      (s.counted (vote epoch price k) epoch).2 := by
    rw [hcount]
    exact (OracleState.epochStateAt_insert s epoch epoch _ s.finalizedPrices).trans (if_pos rfl)
  refine ⟨?_, ?_, ?_, fun k' hk' => ?_, ?_⟩
  · rw [hcount]
    exact h.no_price
  · rw [hstate]
    simp [OracleState.counted, h.is_open]
  · rw [hstate]
    exact h.signers_counted k
  · rw [hstate, OracleState.counted, OracleEpochState.signerPrices_recordCbe,
      OracleEpochState.signerPrices_recordSov h.is_open, validatorPubkey_vote,
      if_neg fun heq : k' = k => hk' (heq ▸ List.mem_cons_self)]
    exact h.others k' fun hmem => hk' (List.mem_cons_of_mem _ hmem)
  · rw [hcount]
    exact h.legacy

theorem Collecting.last (h : Collecting epoch price voters s) (hnew : k ∉ voters) (hmember : k ∈ s.committee.members)
    (hsigned : Signed verify resolve (vote epoch price k))
    (henough : s.committee.threshold ≤ (k :: voters).toFinset.card) :
    ((s.processAttestation verify resolve (vote epoch price k) epoch).2.finalizedPrices.lookup epoch).map
      (·.sovUsdPrice) = some price := by
  have hlookup := OracleState.lookup_countAttestation_open (a := vote epoch price k) h.no_price h.is_open
  rw [sovUsdPrice_vote, h.signers_counted, if_pos henough] at hlookup
  simp only [OracleState.processAttestation, h.precheck hnew hmember hsigned]
  rw [hlookup]
  rfl

end

namespace OracleNode

variable {N : OracleNetwork} {n : OracleNode N} {epoch price : Nat}

theorem finalizes_of_collecting {voters rest : List KeyId} {p : Processing} (h : Collecting epoch price voters p.state)
    (hcommittee : p.state.committee = n.start.committee) (hnodup : (rest.reverse ++ voters).Nodup)
    (hmember : ∀ k ∈ rest, k ∈ N.members) (hsigned : ∀ k ∈ rest, Signed N.verify n.resolve (vote epoch price k))
    (hrest : rest ≠ []) (hlength : rest.length + voters.length = n.start.committee.threshold) :
    ((run n.step p (rest.map fun k => ⟨vote epoch price k, epoch⟩)).state.finalizedPrices.lookup epoch).map
      (·.sovUsdPrice) = some price := by
  induction rest generalizing voters p with
  | nil => exact absurd rfl hrest
  | cons k rest ih =>
    rw [List.reverse_cons, List.append_assoc, List.singleton_append] at hnodup
    have htail : (k :: voters).Nodup := hnodup.of_append_right
    have hnew : k ∉ voters := (List.nodup_cons.mp htail).1
    have hk : k ∈ p.state.committee.members := by
      rw [hcommittee, n.members_eq]
      exact hmember k List.mem_cons_self
    have hcard : (k :: voters).toFinset.card = (k :: voters).length := List.toFinset_card_of_nodup htail
    rw [List.length_cons] at hlength hcard
    have hstep := hsigned k List.mem_cons_self
    by_cases hlast : rest = []
    · subst hlast
      refine h.last hnew hk hstep (Nat.le_of_eq ?_)
      rw [hcommittee, hcard, ← hlength, List.length_nil]
      omega
    · have hpos : 0 < rest.length := List.length_pos_iff.mpr hlast
      have hmore := h.more hnew hk hstep (by rw [hcommittee, hcard]; omega)
      refine ih (p := n.step p ⟨vote epoch price k, epoch⟩) hmore ?_ hnodup
        (fun k' hk' => hmember k' (List.mem_cons_of_mem _ hk'))
        (fun k' hk' => hsigned k' (List.mem_cons_of_mem _ hk')) hlast ?_
      · exact OracleState.committee_processAttestation.trans hcommittee
      · rw [List.length_cons]
        omega

theorem finalizes_of_voters (n : OracleNode N) (hlegacy : n.start.protocolConfig.isStrictSpecActive = false)
    {voters : List KeyId} (hnodup : voters.Nodup) (hmember : ∀ k ∈ voters, k ∈ N.members)
    (hsigned : ∀ k ∈ voters, Signed N.verify n.resolve (vote epoch price k))
    (hlength : voters.length = n.start.committee.threshold) :
    n.finalizes (voters.map fun k => ⟨vote epoch price k, epoch⟩) epoch = some price := by
  have hstate : n.start.epochStateAt epoch = {} := by
    rw [OracleState.epochStateAt, n.no_votes]
    rfl
  have hpos : 0 < n.start.committee.threshold := by
    unfold OracleCommitteeState.threshold
    omega
  have hstart : Collecting epoch price [] n.start := by
    refine ⟨?_, ?_, ?_, fun k _ => ?_, hlegacy⟩
    · rw [n.no_prices]
      rfl
    · rw [hstate]
    · rw [hstate]
      rfl
    · rw [hstate]
      rfl
  refine finalizes_of_collecting hstart rfl ?_ hmember hsigned ?_ hlength
  · rwa [List.append_nil, List.nodup_reverse]
  · exact List.length_pos_iff.mp (hlength ▸ hpos)

end OracleNode

/-! ## A committee whose threshold does not fit -/

def memberKey (i : Nat) : KeyId := BitVec.ofNat _ i

theorem toNat_memberKey {i : Nat} (h : i < 98303) : (memberKey i).toNat = i := by
  rw [memberKey, BitVec.toNat_ofNat]
  exact Nat.mod_eq_of_lt (Nat.lt_trans h (by decide))

theorem memberKey_inj {i j : Nat} (hi : i < 98303) (hj : j < 98303) (h : memberKey i = memberKey j) : i = j := by
  rw [← toNat_memberKey hi, h, toNat_memberKey hj]

theorem card_image_memberKey {t : Finset Nat} (h : ∀ i ∈ t, i < 98303) : (t.image memberKey).card = t.card :=
  Finset.card_image_of_injOn fun i hi j hj => memberKey_inj (h i hi) (h j hj)

/-- The lower two thirds sign the price 1, the upper two thirds the price 2. The middle third signs both. -/
def SignsOne (k : KeyId) (a : OraclePriceAttestation) : Prop :=
  a.sovUsdPrice = 1 ∧ k.toNat < 65535 ∨ a.sovUsdPrice = 2 ∧ 32768 ≤ k.toNat

instance (k : KeyId) (a : OraclePriceAttestation) : Decidable (SignsOne k a) := by
  unfold SignsOne
  infer_instance

def largeNetwork : OracleNetwork where
  verify := fun a _ => if SignsOne a.validatorPubkey a then .ok () else .error .invalidSignature
  members := (Finset.range 98303).image memberKey
  byzantine := (Finset.Ico 32768 65535).image memberKey
  signs := SignsOne
  few := by
    have hthird : ∀ i ∈ Finset.Ico 32768 65535, i < 98303 := fun i hi => by
      have := (Finset.mem_Ico.mp hi).2
      omega
    rw [card_image_memberKey hthird, card_image_memberKey fun i hi => Finset.mem_range.mp hi, Finset.card_range,
      Nat.card_Ico]
    omega
  honest := by
    intro k hk hhonest a b ha hb _
    obtain ⟨i, hi, rfl⟩ := Finset.mem_image.mp hk
    have hi : i < 98303 := Finset.mem_range.mp hi
    have hthird : ¬ (32768 ≤ i ∧ i < 65535) := fun h =>
      hhonest (Finset.mem_image_of_mem _ (Finset.mem_Ico.mpr h))
    unfold SignsOne at ha hb
    rw [toNat_memberKey hi] at ha hb
    omega

def largeNode : OracleNode largeNetwork where
  start := { committee := { members := largeNetwork.members } }
  resolve := fun _ => some []
  members_eq := rfl
  no_votes := rfl
  no_prices := rfl
  unforgeable := by
    rintro a - - ⟨pubkey, -, hverify⟩
    by_contra hnot
    have herror : largeNetwork.verify a pubkey = .error .invalidSignature := if_neg hnot
    rw [herror] at hverify
    cases hverify

theorem card_largeNetwork : largeNetwork.members.card = 98303 := by
  rw [largeNetwork, card_image_memberKey fun i hi => Finset.mem_range.mp hi, Finset.card_range]

theorem largeNode_finalizes (first : Nat) {price : Nat} (hfirst : first + 65535 ≤ 98303)
    (hsigns : ∀ i, first ≤ i → i < first + 65535 → SignsOne (memberKey i) (vote 7 price (memberKey i))) :
    largeNode.finalizes (((List.range' first 65535).map memberKey).map fun k => ⟨vote 7 price k, 7⟩) 7 = some price := by
  have hmem : ∀ k ∈ (List.range' first 65535).map memberKey, ∃ i, first ≤ i ∧ i < first + 65535 ∧ memberKey i = k := by
    intro k hk
    obtain ⟨i, hi, rfl⟩ := List.mem_map.mp hk
    rw [List.mem_range'_1] at hi
    exact ⟨i, hi.1, hi.2, rfl⟩
  refine largeNode.finalizes_of_voters rfl ?_ (fun k hk => ?_) (fun k hk => ?_) ?_
  · refine (List.nodup_range').map_on fun i hi j hj heq => ?_
    rw [List.mem_range'_1] at hi hj
    exact memberKey_inj (by omega) (by omega) heq
  · obtain ⟨i, -, hi, rfl⟩ := hmem k hk
    exact Finset.mem_image_of_mem _ (Finset.mem_range.mpr (by omega))
  · obtain ⟨i, hle, hlt, rfl⟩ := hmem k hk
    exact ⟨[], rfl, if_pos (hsigns i hle hlt)⟩
  · rw [List.length_map, List.length_range', OracleCommitteeState.threshold, largeNode.members_eq, card_largeNetwork]
    decide

theorem large_committee_disagrees :
    ∃ (N : OracleNetwork) (n₁ n₂ : OracleNode N) (deliveries₁ deliveries₂ : List Delivery),
      N.members.card = 98303 ∧ n₁.finalizes deliveries₁ 7 = some 1 ∧ n₂.finalizes deliveries₂ 7 = some 2 := by
  refine ⟨largeNetwork, largeNode, largeNode, _, _, card_largeNetwork,
    largeNode_finalizes 0 (by omega) fun i _ hi => ?_,
    largeNode_finalizes 32768 (by omega) fun i hi hlt => ?_⟩
  · exact .inl ⟨rfl, by rw [toNat_memberKey (by omega)]; omega⟩
  · exact .inr ⟨rfl, by rw [toNat_memberKey (by omega)]; omega⟩

end SovereignNetwork.Oracle
