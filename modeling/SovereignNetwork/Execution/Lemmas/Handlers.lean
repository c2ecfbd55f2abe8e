import SovereignNetwork.Execution.Lemmas.Balances

/-!
# What the token, wallet and DAO handlers stage
-/

namespace SovereignNetwork.Execution

open Lib Mutator

variable {X : Externals} {E : BlockExecutor} {s : AList Key.Val} {b : Batch Key.Val} {tx : Transaction} {height : Nat}
  {r : Unit × Batch Key.Val}

def bumpNonce (s : AList Key.Val) (b : Batch Key.Val) (t : TokenId) (a : Address) : Batch Key.Val :=
  b.insert (.tokenNonce t a) (stored (wrapU64 ((committed s).nonce t a + 1)))

/-! ## Token transfers -/

def transferFee (X : Externals) (E : BlockExecutor) (data : TokenTransferData) : Nat :=
  let feeBps := if data.tokenId = X.deriveCbeTokenId then 0 else sovFeeRateBps
  if feeBps > 0 ∧ E.feeSinkAddress ≠ Address.ZERO then wrapU128 (data.amount * feeBps) / 10000 else 0

theorem transferFee_le (data : TokenTransferData) : transferFee X E data ≤ data.amount := by
  unfold transferFee
  have hwrap := Nat.mod_le (data.amount * sovFeeRateBps) (2 ^ 128)
  simp only [wrapU128, sovFeeRateBps] at *
  split <;> split <;> omega

theorem stage_applyTokenTransfer {t : TokenId} {fromAddr toAddr sink : Address} {amount feeBps fee : Nat}
    {b' : Batch Key.Val} (h : (applyTokenTransfer t fromAddr toAddr amount feeBps sink).stage sledView s b = .ok (fee, b')) :
    fee = (if feeBps > 0 ∧ sink ≠ Address.ZERO then wrapU128 (amount * feeBps) / 10000 else 0) ∧
      ∃ b₁ b₂, (debitToken t fromAddr amount).stage sledView s b = .ok ((), b₁) ∧
        (creditToken t toAddr (amount - fee)).stage sledView s b₁ = .ok ((), b₂) ∧
        (creditToken t sink fee).stage sledView s b₂ = .ok ((), b') := by
  unfold applyTokenTransfer at h
  generalize (if feeBps > 0 ∧ sink ≠ Address.ZERO then wrapU128 (amount * feeBps) / 10000 else 0) = feeAmount at h ⊢
  obtain ⟨⟨⟩, b₁, hdebit, h⟩ := Prog.stage_bind_eq_ok.mp h
  obtain ⟨⟨⟩, b₂, hcredit, h⟩ := Prog.stage_bind_eq_ok.mp h
  rcases Prog.stage_ite_eq_ok.mp h with ⟨-, h⟩ | ⟨hzero, h⟩
  · obtain ⟨⟨⟩, b₃, hfee, h⟩ := Prog.stage_bind_eq_ok.mp h
    cases h
    exact ⟨rfl, b₁, b₂, hdebit, hcredit, hfee⟩
  · cases h
    obtain rfl : fee = 0 := by omega
    exact ⟨rfl, b₁, b', hdebit, hcredit, rfl⟩

theorem stage_applyTokenTransferTx (h : (applyTokenTransferTx X E tx).stage sledView s b = .ok r) :
    ∃ data, tx.tokenTransferData = some data ∧ data.amount ≠ 0 ∧
      let t := storageToken X data.tokenId
      let fee := transferFee X E data
      ∃ b₁ b₂ b₃, (debitToken t data.fromAddr data.amount).stage sledView s b = .ok ((), b₁) ∧
        (creditToken t data.toAddr (data.amount - fee)).stage sledView s b₁ = .ok ((), b₂) ∧
        (creditToken t E.feeSinkAddress fee).stage sledView s b₂ = .ok ((), b₃) ∧
        r.2 = bumpNonce s b₃ t data.fromAddr := by
  obtain ⟨data, b₀, hdata, h⟩ := Prog.stage_bind_eq_ok.mp h
  obtain ⟨hdata, rfl⟩ := stage_requireSome_eq_ok.mp hdata
  rcases Prog.stage_ite_eq_ok.mp h with ⟨-, h⟩ | ⟨hamount, h⟩
  · cases h
  obtain ⟨fee, b₃, htransfer, h⟩ := Prog.stage_bind_eq_ok.mp h
  obtain ⟨rfl, b₁, b₂, hdebit, hcredit, hfee⟩ := stage_applyTokenTransfer htransfer
  obtain ⟨_, b₄, hnonce, h⟩ := Prog.stage_bind_eq_ok.mp h
  rw [stage_incrementTokenNonce] at hnonce
  cases hnonce
  cases h
  exact ⟨data, hdata, hamount, b₁, b₂, b₃, hdebit, hcredit, hfee, rfl⟩

/-! ## DAO stakes -/

theorem exists_welfareToken {dao : Address} (h : dao ∈ knownDaos) : ∃ t, welfareTokenForDao X dao = some t := by
  unfold welfareTokenForDao
  split_ifs with h₁ h₂ h₃ h₄ h₅
  · exact ⟨_, rfl⟩
  · exact ⟨_, rfl⟩
  · exact ⟨_, rfl⟩
  · exact ⟨_, rfl⟩
  · exact ⟨_, rfl⟩
  · simp [knownDaos, h₁, h₂, h₃, h₄, h₅] at h

def WelfareTokensDistinct (X : Externals) : Prop :=
  ∀ dao t, welfareTokenForDao X dao = some t → t ≠ canonicalSovTokenId X

def stakeRecord (data : DaoStakeData) (height : Nat) : DaoStakeRecord :=
  ⟨data.staker, data.sectorDaoKeyId, data.amount, height, saturatingAddU64 height data.lockBlocks⟩

theorem stage_applyDaoStake (h : (applyDaoStake X tx height).stage sledView s b = .ok r) :
    ∃ data t b₁, tx.daoStakeData = some data ∧ data.sectorDaoKeyId ∈ knownDaos ∧
      welfareTokenForDao X data.sectorDaoKeyId = some t ∧
      (transferToken (canonicalSovTokenId X) data.staker data.sectorDaoKeyId data.amount).stage sledView s b =
        .ok ((), b₁) ∧
      (creditToken t data.staker data.amount).stage sledView s ((bumpNonce s b₁ (canonicalSovTokenId X) data.staker).insert
        (.daoStake data.sectorDaoKeyId data.staker) (some (stakeRecord data height))) = .ok r := by
  simp only [applyDaoStake, Prog.stage_bind_eq_ok, stage_requireSome_eq_ok, Prog.stage_ite_eq_ok, Prog.stage_fail,
    Prog.fail_bind, reduceCtorEq, and_false, false_or, not_not, ne_eq, stage_incrementTokenNonce, stage_putDaoStake] at h
  obtain ⟨data, _, ⟨hdata, rfl⟩, -, hdao, ⟨⟩, b₁, htransfer, _, _, hnonce, ⟨⟩, _, hrecord, h⟩ := h
  cases hnonce
  cases hrecord
  obtain ⟨t, ht⟩ := exists_welfareToken (X := X) hdao
  rw [ht] at h
  exact ⟨data, t, b₁, hdata, hdao, ht, htransfer, h⟩

def debitWelfare (X : Externals) (dao staker : Address) (amount : Nat) : TxProg Unit :=
  match welfareTokenForDao X dao with
  | some t => debitToken t staker amount
  | none => pure ()

theorem stage_applyDaoUnstake (h : (applyDaoUnstake X tx height).stage sledView s b = .ok r) :
    ∃ data record b₁ b₂, tx.daoUnstakeData = some data ∧
      (committed s).stake data.sectorDaoKeyId data.staker = some record ∧ record.lockedUntil ≤ height ∧
      data.nonce = (committed s).nonce (canonicalSovTokenId X) data.staker ∧
      (transferToken (canonicalSovTokenId X) data.sectorDaoKeyId data.staker record.amount).stage sledView s b =
        .ok ((), b₁) ∧
      (debitWelfare X data.sectorDaoKeyId data.staker record.amount).stage sledView s b₁ = .ok ((), b₂) ∧
      r.2 = bumpNonce s (b₂.insert (.daoStake data.sectorDaoKeyId data.staker) none) (canonicalSovTokenId X) data.staker := by
  simp only [applyDaoUnstake, Prog.stage_bind_eq_ok, stage_requireSome_eq_ok, Prog.stage_ite_eq_ok, Prog.stage_fail,
    Prog.fail_bind, reduceCtorEq, and_false, false_or, not_not, not_lt, ne_eq, stage_getDaoStake, stage_getTokenNonce] at h
  obtain ⟨data, _, ⟨hdata, rfl⟩, -, _, _, hstake, record, _, ⟨hrecord, rfl⟩, hlock, _, _, hget, hnonce,
    ⟨⟩, b₁, htransfer, h⟩ := h
  cases hstake
  cases hget
  refine ⟨data, record, b₁, ?_⟩
  unfold debitWelfare
  cases hwelfare : welfareTokenForDao X data.sectorDaoKeyId with
  | none =>
    rw [hwelfare] at h
    obtain ⟨⟨⟩, b₂, hdelete, h⟩ := Prog.stage_bind_eq_ok.mp h
    cases hdelete
    simp at h
    exact ⟨b₁, hdata, hrecord, hlock, hnonce, htransfer, rfl, (congrArg Prod.snd h).symm⟩
  | some t =>
    rw [hwelfare] at h
    obtain ⟨⟨⟩, b₂, hdebit, h⟩ := Prog.stage_bind_eq_ok.mp h
    obtain ⟨⟨⟩, b₃, hdelete, h⟩ := Prog.stage_bind_eq_ok.mp h
    cases hdelete
    simp at h
    exact ⟨b₂, hdata, hrecord, hlock, hnonce, htransfer, hdebit, (congrArg Prod.snd h).symm⟩

theorem stage_applyTreasuryAllocation (h : (applyTreasuryAllocation X tx).stage sledView s b = .ok r) :
    ∃ data, tx.treasuryAllocationData = some data ∧
      (transferToken (canonicalSovTokenId X) data.sourceTreasuryKeyId data.destinationKeyId data.amount).stage sledView s b =
        .ok r := by
  obtain ⟨data, b₀, hdata, h⟩ := Prog.stage_bind_eq_ok.mp h
  obtain ⟨hdata, rfl⟩ := stage_requireSome_eq_ok.mp hdata
  exact ⟨data, hdata, h⟩

end SovereignNetwork.Execution
