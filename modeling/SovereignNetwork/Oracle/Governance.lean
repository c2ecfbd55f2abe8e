import SovereignNetwork.Oracle.Expulsion
import SovereignNetwork.Oracle.Lemmas.Chain

/-!
# What governance changes in the oracle

The configuration, the members of the committee and the protocol version change at the boundary of an epoch or at a
height, and what comes into force then was scheduled by an approved proposal.
-/

namespace SovereignNetwork.Oracle

open Lib
open CommitteeRun (noValidators)

/-- What is pending was scheduled by proposals of the blocks: a configuration is valid, and a version is newer than the one
in force and leaves the blocks between. -/
structure Approved (blocks : List OracleBlock) (s : OracleState) : Prop where
  config : ∀ p ∈ s.pendingConfigUpdate, p.config.validate = .ok () ∧
    p.expiresAtEpoch ≤ p.activateAtEpoch + 2 ∧
    ∃ block ∈ blocks, ∃ id, .config p.config p.activateAtEpoch id ∈ block.updates
  committee : ∀ p ∈ s.committee.pendingUpdate, p.expiresAtEpoch ≤ p.activateAtEpoch + 2 ∧
    ∃ block ∈ blocks, ∃ members id, .committee members p.activateAtEpoch id ∈ block.updates ∧
      p.members = members.toFinset
  protocol : ∀ p ∈ s.protocolConfig.pendingActivation,
    s.protocolConfig.currentVersion.asU16 < p.targetVersion.asU16 ∧
    ∃ block ∈ blocks, ∃ id, .protocolUpgrade p.targetVersion p.activateAtHeight id ∈ block.updates ∧
      block.height + minProtocolActivationLeadBlocks ≤ p.activateAtHeight

/-- What is pending after was pending before. -/
structure Fewer (s s' : OracleState) : Prop where
  pendingConfig : ∀ p ∈ s'.pendingConfigUpdate, p ∈ s.pendingConfigUpdate
  pendingCommittee : ∀ p ∈ s'.committee.pendingUpdate, p ∈ s.committee.pendingUpdate
  protocol : s'.protocolConfig = s.protocolConfig

/-- The same up to prices and to members that are gone. -/
structure Kept (s s' : OracleState) : Prop extends Fewer s s' where
  config : s'.config = s.config
  members : s'.committee.members ⊆ s.committee.members

variable {blocks : List OracleBlock} {block : OracleBlock} {s s' s'' : OracleState} {c c' : OracleChain} {epoch : Nat}

theorem Fewer.refl (s : OracleState) : Fewer s s := ⟨fun _ => id, fun _ => id, rfl⟩

theorem Fewer.trans (h : Fewer s s') (h' : Fewer s' s'') : Fewer s s'' :=
  ⟨fun p hp => h.1 p (h'.1 p hp), fun p hp => h.2 p (h'.2 p hp), h'.protocol.trans h.protocol⟩

theorem Kept.refl (s : OracleState) : Kept s s := ⟨.refl s, rfl, subset_rfl⟩

theorem Kept.trans (h : Kept s s') (h' : Kept s' s'') : Kept s s'' :=
  ⟨h.toFewer.trans h'.toFewer, h'.config.trans h.config, h'.members.trans h.members⟩

theorem Approved.fewer (h : Approved blocks s) (hfewer : Fewer s s') : Approved blocks s' :=
  ⟨fun p hp => h.config p (hfewer.1 p hp), fun p hp => h.committee p (hfewer.2 p hp), hfewer.protocol ▸ h.protocol⟩

theorem Approved.mono {blocks' : List OracleBlock} (h : Approved blocks s) (hsub : blocks ⊆ blocks') :
    Approved blocks' s := by
  refine ⟨fun p hp => ?_, fun p hp => ?_, fun p hp => ?_⟩
  · obtain ⟨hvalid, hexpires, b, hb, hid⟩ := h.config p hp
    exact ⟨hvalid, hexpires, b, hsub hb, hid⟩
  · obtain ⟨hexpires, b, hb, hid⟩ := h.committee p hp
    exact ⟨hexpires, b, hsub hb, hid⟩
  · obtain ⟨hnewer, b, hb, hid⟩ := h.protocol p hp
    exact ⟨hnewer, b, hsub hb, hid⟩

/-! ## Attestations -/

theorem kept_applyOracleAttestation (X : OracleExternals) (c : OracleChain) (a : OraclePriceAttestation)
    (blockTimestamp : Nat) : Kept c.oracleState (c.applyOracleAttestation X a blockTimestamp).2.oracleState := by
  rcases c.applyOracleAttestation_cases X a blockTimestamp with ⟨_, -, hslash⟩ | ⟨_, hprocess⟩
  · rw [hslash]
    exact ⟨⟨fun _ => id, fun _ => id, rfl⟩, rfl, Finset.erase_subset _ _⟩
  · rw [hprocess]
    rcases c.oracleState.processAttestation_cases X.verifySignature (c.resolveSigningPubkey X) a
      (c.oracleState.epochId blockTimestamp) with hsame | ⟨-, -, hcount⟩
    · rw [OracleChain.processed, hsame]
      exact .refl _
    · obtain ⟨_, _, _, hframe⟩ := c.oracleState.countAttestation_frame a (c.oracleState.epochId blockTimestamp)
      rw [OracleChain.processed, hcount, hframe]
      exact ⟨⟨fun _ => id, fun _ => id, rfl⟩, rfl, subset_rfl⟩

theorem kept_processOracleAttestationTransactions (X : OracleExternals) (c : OracleChain)
    (attestations : List OraclePriceAttestation) (blockTimestamp : Nat) :
    Kept c.oracleState (c.processOracleAttestationTransactions X attestations blockTimestamp).oracleState := by
  unfold OracleChain.processOracleAttestationTransactions
  induction attestations generalizing c with
  | nil => exact .refl _
  | cons a attestations ih => exact (kept_applyOracleAttestation X c a blockTimestamp).trans (ih _)

/-! ## Proposals -/

def inForce (s : OracleState) : OracleConfig × Finset KeyId × OracleProtocolVersion :=
  (s.config, s.committee.members, s.protocolConfig.currentVersion)

/-- Proposals put nothing in force, and what they schedule is for a later epoch than that of their block. -/
structure Scheduled (blocks : List OracleBlock) (timestamp : Nat) (c c' : OracleChain) : Prop where
  approved : Approved blocks c'.oracleState
  same : inForce c'.oracleState = inForce c.oracleState
  height : c'.height = c.height
  laterConfig : ∀ p ∈ c'.oracleState.pendingConfigUpdate,
    p ∈ c.oracleState.pendingConfigUpdate ∨ c.oracleState.epochId timestamp < p.activateAtEpoch
  laterCommittee : ∀ p ∈ c'.oracleState.committee.pendingUpdate,
    p ∈ c.oracleState.committee.pendingUpdate ∨ c.oracleState.epochId timestamp < p.activateAtEpoch

theorem epochId_of_inForce (h : inForce s' = inForce s) (timestamp : Nat) : s'.epochId timestamp = s.epochId timestamp := by
  have hconfig : s'.config = s.config := congrArg Prod.fst h
  rw [OracleState.epochId, hconfig, OracleState.epochId]

theorem Scheduled.refl (h : Approved blocks c.oracleState) (timestamp : Nat) : Scheduled blocks timestamp c c :=
  ⟨h, rfl, rfl, fun _ => .inl, fun _ => .inl⟩

theorem Scheduled.trans {c'' : OracleChain} {timestamp : Nat} (h : Scheduled blocks timestamp c c')
    (h' : Scheduled blocks timestamp c' c'') : Scheduled blocks timestamp c c'' := by
  have hepoch := epochId_of_inForce h.same timestamp
  refine ⟨h'.approved, h'.same.trans h.same, h'.height.trans h.height, fun p hp => ?_, fun p hp => ?_⟩
  · exact (h'.laterConfig p hp).elim (h.laterConfig p) fun hlater => .inr (hepoch ▸ hlater)
  · exact (h'.laterCommittee p hp).elim (h.laterCommittee p) fun hlater => .inr (hepoch ▸ hlater)

theorem scheduled_applyUpdate (h : Approved blocks c.oracleState) (hblock : block ∈ blocks) {update : OracleUpdate}
    (hupdate : update ∈ block.updates) (hheight : c.height = block.height)
    (hlead : block.height + minProtocolActivationLeadBlocks < 2 ^ 64) :
    Scheduled blocks block.timestamp c (c.applyUpdate block.timestamp update) := by
  cases update with
  | committee newMembers activateAtEpoch proposalId =>
    simp only [OracleChain.applyUpdate]
    split
    · next s hschedule =>
      simp only [OracleState.scheduleCommitteeUpdate, guard_eq_ok, pure_eq_ok] at hschedule
      obtain ⟨-, -, hlater, rfl⟩ := hschedule
      refine ⟨⟨h.config, ?_, h.protocol⟩, rfl, rfl, fun _ => .inl, ?_⟩
      · rintro _ ⟨⟩
        exact ⟨Nat.min_le_left _ _, block, hblock, newMembers, proposalId, hupdate, rfl⟩
      · rintro _ ⟨⟩
        exact .inr (Nat.not_le.mp hlater)
    · exact .refl h _
  | config nextConfig activateAtEpoch proposalId =>
    simp only [OracleChain.applyUpdate]
    split
    · next s hschedule =>
      simp only [OracleState.scheduleConfigUpdate, bind_eq_ok, guard_eq_ok, pure_eq_ok] at hschedule
      obtain ⟨_, hvalid, hlater, rfl⟩ := hschedule
      refine ⟨⟨?_, h.committee, h.protocol⟩, rfl, rfl, ?_, fun _ => .inl⟩
      · rintro _ ⟨⟩
        exact ⟨hvalid, Nat.min_le_left _ _, block, hblock, proposalId, hupdate⟩
      · rintro _ ⟨⟩
        exact .inr (Nat.not_le.mp hlater)
    · exact .refl h _
  | protocolUpgrade targetVersion activateAtHeight proposalId =>
    simp only [OracleChain.applyUpdate]
    split
    · next protocolConfig hschedule =>
      simp only [OracleProtocolConfig.scheduleActivation, guard_eq_ok] at hschedule
      obtain ⟨-, hsoon, holder, hsame, hschedule⟩ := hschedule
      split at hschedule
      · cases hschedule
      · cases hschedule
        refine ⟨⟨h.config, h.committee, ?_⟩, rfl, rfl, fun _ => .inl, fun _ => .inl⟩
        rintro _ ⟨⟩
        have hnewer : c.oracleState.protocolConfig.currentVersion.asU16 < targetVersion.asU16 := by
          revert holder hsame
          cases c.oracleState.protocolConfig.currentVersion <;> cases targetVersion <;> decide
        rw [hheight, saturatingAddU64, Nat.min_eq_left (by omega)] at hsoon
        exact ⟨hnewer, block, hblock, proposalId, hupdate, Nat.not_lt.mp hsoon⟩
    · exact .refl h _
  | cancel cancelCommitteeUpdate cancelConfigUpdate =>
    have hfewer : Fewer c.oracleState
        (c.applyUpdate block.timestamp (.cancel cancelCommitteeUpdate cancelConfigUpdate)).oracleState := by
      refine ⟨?_, ?_, rfl⟩
      · simp only [OracleChain.applyUpdate, OracleState.cancelPendingUpdates]
        split
        · rintro _ ⟨⟩
        · exact fun _ => id
      · simp only [OracleChain.applyUpdate, OracleState.cancelPendingUpdates]
        split
        · rintro _ ⟨⟩
        · exact fun _ => id
    refine ⟨h.fewer hfewer, ?_, rfl, fun p hp => .inl (hfewer.1 p hp), fun p hp => .inl (hfewer.2 p hp)⟩
    simp only [OracleChain.applyUpdate, OracleState.cancelPendingUpdates]
    split <;> rfl

theorem scheduled_updates (hblock : block ∈ blocks) (hlead : block.height + minProtocolActivationLeadBlocks < 2 ^ 64)
    (updates : List OracleUpdate) (hupdates : updates ⊆ block.updates) (c : OracleChain)
    (h : Approved blocks c.oracleState) (hheight : c.height = block.height) :
    Scheduled blocks block.timestamp c (updates.foldl (fun c update => c.applyUpdate block.timestamp update) c) := by
  induction updates generalizing c with
  | nil => exact .refl h _
  | cons update updates ih =>
    have hfirst := scheduled_applyUpdate h hblock (hupdates List.mem_cons_self) hheight hlead
    have hrest := ih (fun _ hu => hupdates (List.mem_cons_of_mem _ hu)) _ hfirst.approved (hfirst.height.trans hheight)
    exact hfirst.trans hrest

/-! ## Blocks -/

/-- The epoch is one in which an update may come into force. -/
def InWindow (activateAtEpoch expiresAtEpoch epoch : Nat) : Prop := activateAtEpoch ≤ epoch ∧ epoch < expiresAtEpoch

/-- What the block puts in force was scheduled by proposals of the blocks before it. -/
structure PutInForce (blocks : List OracleBlock) (block : OracleBlock) (s s' : OracleState) : Prop where
  config : s'.config = s.config ∨ s'.config.validate = .ok () ∧
    ∃ earlier ∈ blocks, ∃ epoch id, .config s'.config epoch id ∈ earlier.updates ∧
      InWindow epoch (epoch + 2) (s.epochId block.timestamp)
  committee : s'.committee.members ⊆ s.committee.members ∨
    ∃ earlier ∈ blocks, ∃ members epoch id, .committee members epoch id ∈ earlier.updates ∧
      s'.committee.members ⊆ members.toFinset ∧ InWindow epoch (epoch + 2) (s.epochId block.timestamp)
  version : s'.protocolConfig.currentVersion = s.protocolConfig.currentVersion ∨
    s.protocolConfig.currentVersion.asU16 < s'.protocolConfig.currentVersion.asU16 ∧
    ∃ earlier ∈ blocks, ∃ height id,
      .protocolUpgrade s'.protocolConfig.currentVersion height id ∈ earlier.updates ∧
      earlier.height + minProtocolActivationLeadBlocks ≤ height ∧ height ≤ block.height

/-- A boundary takes pending updates of this epoch, and members may leave. -/
structure Advanced (epoch : Nat) (s s' : OracleState) : Prop extends Fewer s s' where
  config : s'.config = s.config ∨ ∃ p ∈ s.pendingConfigUpdate,
    InWindow p.activateAtEpoch p.expiresAtEpoch epoch ∧ s'.config = p.config
  members : s'.committee.members ⊆ s.committee.members ∨ ∃ p ∈ s.committee.pendingUpdate,
    InWindow p.activateAtEpoch p.expiresAtEpoch epoch ∧ s'.committee.members ⊆ p.members

theorem Advanced.kept (h : Advanced epoch s s') (hkept : Kept s' s'') : Advanced epoch s s'' := by
  refine ⟨h.toFewer.trans hkept.toFewer, hkept.config ▸ h.config, h.members.imp hkept.members.trans ?_⟩
  rintro ⟨p, hp, hwindow, hsub⟩
  exact ⟨p, hp, hwindow, hkept.members.trans hsub⟩

theorem inWindow_of_due {activateAtEpoch expiresAtEpoch : Nat}
    (h : OracleState.due activateAtEpoch expiresAtEpoch epoch = .active) :
    InWindow activateAtEpoch expiresAtEpoch epoch := by
  grind [OracleState.due, InWindow]

theorem advanced_applyPendingConfigUpdate (s : OracleState) (epoch : Nat) :
    Advanced epoch s (s.applyPendingConfigUpdate epoch) ∧ (s.applyPendingConfigUpdate epoch).committee = s.committee := by
  unfold OracleState.applyPendingConfigUpdate
  split
  · exact ⟨⟨.refl s, .inl rfl, .inl (subset_rfl)⟩, rfl⟩
  · next p hp =>
    split
    · exact ⟨⟨⟨nofun, fun _ => id, rfl⟩, .inl rfl, .inl (subset_rfl)⟩, rfl⟩
    · next hdue =>
      exact ⟨⟨⟨nofun, fun _ => id, rfl⟩, .inr ⟨p, hp, inWindow_of_due hdue, rfl⟩, .inl (subset_rfl)⟩, rfl⟩
    · exact ⟨⟨.refl s, .inl rfl, .inl (subset_rfl)⟩, rfl⟩

theorem advanced_applyPendingCommitteeUpdate (s : OracleState) (epoch : Nat) :
    Advanced epoch s { s with committee := OracleState.applyPendingCommitteeUpdate s.committee epoch } := by
  unfold OracleState.applyPendingCommitteeUpdate
  split
  · exact ⟨.refl s, .inl rfl, .inl (subset_rfl)⟩
  · next p hp =>
    split
    · exact ⟨⟨fun _ => id, nofun, rfl⟩, .inl rfl, .inl (subset_rfl)⟩
    · next hdue =>
      exact ⟨⟨fun _ => id, nofun, rfl⟩, .inl rfl, .inr ⟨p, hp, inWindow_of_due hdue, subset_rfl⟩⟩
    · exact ⟨.refl s, .inl rfl, .inl (subset_rfl)⟩

theorem kept_applyPendingCommitteeRemovals (c : OracleChain) (epoch : Nat) :
    Kept c.oracleState (c.applyPendingCommitteeRemovals epoch).oracleState := by
  have hfold : ∀ (entries : List CommitteeRemovalEntry) (committee : OracleCommitteeState),
      let after := entries.foldl (fun committee entry => committee.removeMember entry.validatorKeyId) committee
      after.pendingUpdate = committee.pendingUpdate ∧ after.members ⊆ committee.members := by
    intro entries
    induction entries with
    | nil => exact fun _ => ⟨rfl, subset_rfl⟩
    | cons entry entries ih => exact fun committee => ⟨(ih _).1, (ih _).2.trans (Finset.erase_subset _ _)⟩
  exact ⟨⟨fun _ => id, fun p hp => (hfold _ _).1 ▸ hp, rfl⟩, rfl, (hfold _ _).2⟩

theorem advanced_advanceOracleEpoch (c : OracleChain) (timestamp : Nat) :
    Advanced (c.oracleState.epochId timestamp) c.oracleState (c.advanceOracleEpoch timestamp).oracleState := by
  unfold OracleChain.advanceOracleEpoch
  split
  · -- the committee first, then the configuration, which leaves the committee alone
    have hcommittee := advanced_applyPendingCommitteeUpdate c.oracleState (c.oracleState.epochId timestamp)
    obtain ⟨hconfig, hsame⟩ := advanced_applyPendingConfigUpdate _ (c.oracleState.epochId timestamp)
    have hupdates : Advanced (c.oracleState.epochId timestamp) c.oracleState
        (c.oracleState.applyPendingUpdates (c.oracleState.epochId timestamp)) :=
      ⟨hcommittee.toFewer.trans hconfig.toFewer, hconfig.config, hsame ▸ hcommittee.members⟩
    exact hupdates.kept (kept_applyPendingCommitteeRemovals { c with oracleState := _ } _)
  · exact ⟨.refl _, .inl rfl, .inl (subset_rfl)⟩

theorem approved_applyPendingActivation (h : Approved blocks s) (height : Nat) :
    Approved blocks { s with protocolConfig := s.protocolConfig.applyPendingActivation height } := by
  refine ⟨h.config, h.committee, ?_⟩
  unfold OracleProtocolConfig.applyPendingActivation
  split
  · split
    · nofun
    · exact h.protocol
  · exact h.protocol

/-- The block has the next height, and the heights a proposal needs fit `u64`. -/
def Follows (c : OracleChain) (block : OracleBlock) : Prop :=
  block.height = c.height + 1 ∧ block.height + minProtocolActivationLeadBlocks < 2 ^ 64

theorem processBlock_approved (X : OracleExternals) (h : Approved blocks c.oracleState) (hfollows : Follows c block) :
    Approved (blocks ++ [block]) (c.processBlock X block).oracleState ∧
      PutInForce blocks block c.oracleState (c.processBlock X block).oracleState := by
  have hstart := (approved_applyPendingActivation h block.height).mono (List.subset_append_left blocks [block])
  have hs : Scheduled _ block.timestamp _ (c.governBlock block) :=
    scheduled_updates (by simp) hfollows.2 block.updates (List.Subset.refl _) _ hstart hfollows.1.symm
  have hadvanced := (advanced_advanceOracleEpoch (c.governBlock block) block.timestamp).kept
    (kept_processOracleAttestationTransactions X _ block.attestations block.timestamp)
  rw [epochId_of_inForce hs.same] at hadvanced
  have hconfig : (c.governBlock block).oracleState.config = c.oracleState.config := congrArg Prod.fst hs.same
  have hmembers : (c.governBlock block).oracleState.committee.members = c.oracleState.committee.members :=
    congrArg (·.2.1) hs.same
  refine ⟨hs.approved.fewer hadvanced.toFewer, ?_, ?_, ?_⟩
  · refine hadvanced.config.imp (·.trans hconfig) ?_
    rintro ⟨p, hp, hwindow, hnew⟩
    -- an update of this block is for a later epoch
    have hold := (hs.laterConfig p hp).resolve_right (Nat.not_lt.mpr hwindow.1)
    obtain ⟨hvalid, hexpires, earlier, hmem, id, hid⟩ := h.config p hold
    exact ⟨hnew ▸ hvalid, earlier, hmem, _, id, hnew ▸ hid, hwindow.1, hwindow.2.trans_le hexpires⟩
  · refine hadvanced.members.imp (·.trans hmembers.subset) ?_
    rintro ⟨p, hp, hwindow, hsub⟩
    have hold := (hs.laterCommittee p hp).resolve_right (Nat.not_lt.mpr hwindow.1)
    obtain ⟨hexpires, earlier, hmem, members, id, hid, hmembers⟩ := h.committee p hold
    exact ⟨earlier, hmem, members, _, id, hid, hmembers ▸ hsub, hwindow.1, hwindow.2.trans_le hexpires⟩
  · have hversion : (c.processBlock X block).oracleState.protocolConfig.currentVersion =
        (c.oracleState.protocolConfig.applyPendingActivation block.height).currentVersion :=
      (congrArg _ hadvanced.protocol).trans (congrArg (·.2.2) hs.same)
    rw [hversion]
    unfold OracleProtocolConfig.applyPendingActivation
    split
    · next p hp =>
      split
      · next hreached =>
        obtain ⟨hnewer, earlier, hmem, id, hid, hlead⟩ := h.protocol p hp
        exact .inr ⟨hnewer, earlier, hmem, _, id, hid, hlead, hreached⟩
      · exact .inl rfl
    · exact .inl rfl

/-! ## Runs -/

theorem approved_run (X : OracleExternals) (hstart : Approved [] c.oracleState)
    (hrun : Along (OracleChain.processBlock X) Follows c blocks) :
    Approved blocks (run (OracleChain.processBlock X) c blocks).oracleState := by
  induction blocks using List.reverseRecOn with
  | nil => exact hstart
  | append_singleton blocks block ih =>
    obtain ⟨hbefore, hlast⟩ := Along.append.mp hrun
    rw [run_append]
    exact (processBlock_approved X (ih hbefore) hlast.1).1

/-- Where nothing was pending at first, whatever a block puts in force was scheduled in an earlier block. -/
theorem only_earlier_proposals_come_into_force (X : OracleExternals) (c : OracleChain)
    (hconfig : c.oracleState.pendingConfigUpdate = none) (hcommittee : c.oracleState.committee.pendingUpdate = none)
    (hprotocol : c.oracleState.protocolConfig.pendingActivation = none) (blocks : List OracleBlock) (block : OracleBlock)
    (hrun : Along (OracleChain.processBlock X) Follows c (blocks ++ [block])) :
    PutInForce blocks block (run (OracleChain.processBlock X) c blocks).oracleState
      (run (OracleChain.processBlock X) c (blocks ++ [block])).oracleState := by
  obtain ⟨hbefore, hlast⟩ := Along.append.mp hrun
  have hstart : Approved [] c.oracleState := ⟨by simp [hconfig], by simp [hcommittee], by simp [hprotocol]⟩
  rw [run_append]
  exact (processBlock_approved X (approved_run X hstart hbefore) hlast.1).2

def proposalBlock : OracleBlock :=
  { height := 1, timestamp := 0, updates := [.config { epochDurationSecs := 120 } 1 0, .committee [7, 8] 1 0] }

theorem proposals_come_into_force_next_epoch :
    let s := (run (OracleChain.processBlock noValidators) {} [proposalBlock]).oracleState
    let s' := (run (OracleChain.processBlock noValidators) {} [proposalBlock, { height := 2, timestamp := 300 }]).oracleState
    s'.config.epochDurationSecs = 120 ∧ s'.committee.members = {7, 8} ∧
      PutInForce [proposalBlock] { height := 2, timestamp := 300 } s s' :=
  ⟨by decide +kernel, by decide +kernel, only_earlier_proposals_come_into_force noValidators {} rfl rfl rfl
    [proposalBlock] _ ⟨⟨rfl, by decide⟩, ⟨rfl, by decide⟩, trivial⟩⟩

end SovereignNetwork.Oracle
