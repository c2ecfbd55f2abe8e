import SovereignNetwork.Execution.Chain
import SovereignNetwork.Execution.Lemmas.Handlers

/-!
# Conservation of tokens

What a lone transfer, treasury allocation, stake or unstake does to the total of the token that it moves.
-/

namespace SovereignNetwork.Execution

open Lib Mutator

variable {X : Externals} {E : BlockExecutor}

/-- An amount of a token on its way, less what is burned and what the fee sink gets. -/
structure Movement where
  token : TokenId
  sender : Address
  recipient : Address
  amount : Nat
  burn : Nat
  fee : Nat
  deriving DecidableEq

/-- A movement of SOV, whose contract may burn some of it. -/
def sovMovement (X : Externals) (σ : ChainState) (sender recipient : Address) (amount : Nat) : Movement :=
  ⟨canonicalSovTokenId X, sender, recipient, amount, burnOf (σ.contract (canonicalSovTokenId X)) amount, 0⟩

def movement (X : Externals) (E : BlockExecutor) (σ : ChainState) (tx : Transaction) : Option Movement :=
  match tx.transactionType with
  | .tokenTransfer => tx.tokenTransferData.map fun data =>
    ⟨storageToken X data.tokenId, data.fromAddr, data.toAddr, data.amount, 0, transferFee X E data⟩
  | .treasuryAllocation => tx.treasuryAllocationData.map fun data =>
    sovMovement X σ data.sourceTreasuryKeyId data.destinationKeyId data.amount
  | .daoStake => tx.daoStakeData.map fun data => sovMovement X σ data.staker data.sectorDaoKeyId data.amount
  | .daoUnstake => tx.daoUnstakeData.bind fun data => (σ.stake data.sectorDaoKeyId data.staker).map fun record =>
    sovMovement X σ data.sectorDaoKeyId data.staker record.amount
  | _ => none

/-- No two balances that the movement writes are the same one. -/
def Movement.Separate (E : BlockExecutor) (m : Movement) : Prop :=
  (m.amount - m.burn - m.fee ≠ 0 → m.sender ≠ m.recipient) ∧
    (m.fee ≠ 0 → E.feeSinkAddress ≠ m.sender) ∧
    (m.fee ≠ 0 → m.amount - m.burn - m.fee ≠ 0 → E.feeSinkAddress ≠ m.recipient)

instance (E : BlockExecutor) (m : Movement) : Decidable (m.Separate E) := inferInstanceAs (Decidable (_ ∧ _ ∧ _))

/-- The burn is part of the amount and of the recorded supply. -/
def Movement.BurnCovered (σ : ChainState) (m : Movement) : Prop :=
  m.burn ≤ m.amount ∧ ∀ supply, σ.supply m.token = some supply → m.burn ≤ supply

variable {s : AList Key.Val} {b : Batch Key.Val} {m : Movement}

/-- The batch takes the burn of the movement, and nothing else, from the token's total and from its recorded supply. -/
def Conserves (s : AList Key.Val) (b : Batch Key.Val) (m : Movement) : Prop :=
  totalAfter (balanceWeight m.token) s b + m.burn = total (balanceWeight m.token) s ∧
    ∀ supply, (committed s).supply m.token = some supply →
      ∃ supply', (staged s b).supply m.token = some supply' ∧ supply' + m.burn = supply

theorem conserves_insert {k : Key} (hbalance : ∀ t a, k ≠ .tokenBalance t a) (hsupply : ∀ t, k ≠ .tokenSupply t)
    (v : Option k.Val) : Conserves s (b.insert k v) m ↔ Conserves s b m := by
  have hs : (staged s (b.insert k v)).supply m.token = (staged s b).supply m.token :=
    latest_insert_of_ne (hsupply _).symm v
  rw [Conserves, Conserves, total_insert_of_ne (hbalance _), hs]

theorem conserves_writeBalance {t : TokenId} (ht : t ≠ m.token) (a : Address) (n v : Nat) :
    Conserves s (writeBalance b t a n v) m ↔ Conserves s b m := by
  have hs : (staged s (writeBalance b t a n v)).supply m.token = (staged s b).supply m.token := by
    show latest _ _ _ = latest _ _ _
    rw [latest, latest, lookup_writeBalance (by simp)]
  rw [Conserves, Conserves, total_writeBalance_of_ne ht.symm, hs]

/-- The balances that a movement writes before the fee sink's, each on top of the committed one. -/
def Movement.credited (s : AList Key.Val) (m : Movement) : Batch Key.Val :=
  writeBalance (writeBalance ∅ m.token m.sender m.amount ((committed s).balance m.token m.sender - m.amount)) m.token
    m.recipient (m.amount - m.burn - m.fee) ((committed s).balance m.token m.recipient + (m.amount - m.burn - m.fee))

def Movement.balances (E : BlockExecutor) (s : AList Key.Val) (m : Movement) : Batch Key.Val :=
  writeBalance (m.credited s) m.token E.feeSinkAddress m.fee ((committed s).balance m.token E.feeSinkAddress + m.fee)

theorem Movement.total_credited (hheld : m.amount ≤ (committed s).balance m.token m.sender) :
    totalAfter (balanceWeight m.token) s (m.credited s) +
        (if m.amount - m.burn - m.fee ≠ 0 → m.sender ≠ m.recipient then m.amount else 0) =
      total (balanceWeight m.token) s + (m.amount - m.burn - m.fee) := by
  have hdebit := total_debit (s := s) (b := ∅) (fun _ => AList.notMem_empty _) hheld
  have hcredit := total_writeBalance_add (s := s) (t := m.token) (a := m.recipient)
    (b := writeBalance ∅ m.token m.sender m.amount ((committed s).balance m.token m.sender - m.amount))
    (m.amount - m.burn - m.fee) ((committed s).balance m.token m.recipient + (m.amount - m.burn - m.fee))
  rw [balance_writeBalance, ← credited] at hcredit
  rw [totalAfter_empty] at hdebit
  have hempty : (staged s ∅).balance m.token m.recipient = (committed s).balance m.token m.recipient := rfl
  rw [hempty] at hcredit
  by_cases hnet : m.amount - m.burn - m.fee = 0
  · rw [if_pos hnet] at hcredit
    rw [if_pos fun h => absurd hnet h]
    omega
  · rw [if_neg hnet] at hcredit
    by_cases hself : m.sender = m.recipient
    · rw [if_pos ⟨by omega, hself.symm⟩, ← hself] at hcredit
      rw [if_neg fun h => h hnet hself]
      omega
    · rw [if_neg fun h => hself h.2.symm] at hcredit
      rw [if_pos fun _ => hself]
      omega

theorem Movement.total_balances (hheld : m.amount ≤ (committed s).balance m.token m.sender) :
    totalAfter (balanceWeight m.token) s (m.balances E s) +
        (if (m.amount - m.burn - m.fee ≠ 0 → m.sender ≠ m.recipient) ∧ (m.fee ≠ 0 → E.feeSinkAddress ≠ m.sender)
          then m.amount else 0) =
      total (balanceWeight m.token) s + m.fee +
        (if m.fee ≠ 0 → m.amount - m.burn - m.fee ≠ 0 → E.feeSinkAddress ≠ m.recipient
          then m.amount - m.burn - m.fee else 0) := by
  have hcredited := m.total_credited hheld
  have hsink := total_writeBalance_add (s := s) (t := m.token) (a := E.feeSinkAddress) (b := m.credited s) m.fee
    ((committed s).balance m.token E.feeSinkAddress + m.fee)
  rw [← balances] at hsink
  by_cases hfee : m.fee = 0
  · rw [if_pos hfee] at hsink
    simp only [hfee, ne_eq, not_true_eq_false, false_implies, and_true, if_true] at *
    omega
  · rw [if_neg hfee, credited, balance_writeBalance, balance_writeBalance, ← credited] at hsink
    have hempty : (staged s ∅).balance m.token E.feeSinkAddress = (committed s).balance m.token E.feeSinkAddress := rfl
    rw [hempty] at hsink
    by_cases hrecipient : m.amount - m.burn - m.fee ≠ 0 ∧ E.feeSinkAddress = m.recipient
    · rw [if_pos hrecipient, hrecipient.2] at hsink
      simp only [hfee, hrecipient.1, hrecipient.2, ne_eq, not_false_eq_true, true_implies, not_true_eq_false, if_false,
        eq_comm (a := m.recipient), and_self] at *
      omega
    · rw [if_neg hrecipient] at hsink
      have hapart : m.amount - m.burn - m.fee ≠ 0 → E.feeSinkAddress ≠ m.recipient := fun h heq => hrecipient ⟨h, heq⟩
      rw [if_pos fun _ => hapart]
      by_cases hsender : E.feeSinkAddress = m.sender
      · rw [hsender] at hsink hapart
        rw [if_pos hapart] at hcredited
        rw [if_neg fun h => h.2 hfee hsender]
        by_cases hamount : m.amount = 0
        · rw [if_neg fun h => h.1 hamount] at hsink
          omega
        · rw [if_pos ⟨hamount, rfl⟩] at hsink
          omega
      · rw [if_neg fun h => hsender h.2] at hsink
        rw [if_congr (and_iff_left fun _ => hsender) rfl rfl]
        omega

/-- A balance that is written twice keeps the last write, so the total is off by what the other has moved. -/
theorem Movement.total_balances_iff (hheld : m.amount ≤ (committed s).balance m.token m.sender)
    (hfee : m.fee ≤ m.amount - m.burn) :
    totalAfter (balanceWeight m.token) s (m.balances E s) + m.burn = total (balanceWeight m.token) s ↔
      m.burn ≤ m.amount ∧ m.Separate E := by
  have htotal := m.total_balances (E := E) hheld
  rw [Separate]
  by_cases hself : m.amount - m.burn - m.fee ≠ 0 → m.sender ≠ m.recipient
  · by_cases hsender : m.fee ≠ 0 → E.feeSinkAddress ≠ m.sender
    · by_cases hrecipient : m.fee ≠ 0 → m.amount - m.burn - m.fee ≠ 0 → E.feeSinkAddress ≠ m.recipient
      · rw [if_pos ⟨hself, hsender⟩, if_pos hrecipient] at htotal
        refine ⟨fun h => ⟨by omega, hself, hsender, hrecipient⟩, fun h => ?_⟩
        omega
      · rw [if_pos ⟨hself, hsender⟩, if_neg hrecipient] at htotal
        refine ⟨fun h => absurd h ?_, fun h => absurd h.2.2.2 hrecipient⟩
        simp only [not_forall] at hrecipient
        obtain ⟨-, hnet, -⟩ := hrecipient
        omega
    · rw [if_neg fun h => hsender h.2] at htotal
      refine ⟨fun h => absurd h ?_, fun h => absurd h.2.2.1 hsender⟩
      simp only [not_forall] at hsender
      obtain ⟨hpaid, -⟩ := hsender
      omega
  · rw [if_neg fun h => hself h.1] at htotal
    refine ⟨fun h => absurd h ?_, fun h => absurd h.2.1 hself⟩
    simp only [not_forall] at hself
    obtain ⟨hnet, -⟩ := hself
    split_ifs at htotal with hrecipient
    · omega
    · simp only [not_forall] at hrecipient
      obtain ⟨hpaid, -⟩ := hrecipient
      omega

theorem conserves_iff (htotal : totalAfter (balanceWeight m.token) s b = totalAfter (balanceWeight m.token) s (m.balances E s))
    (hsupply : (staged s b).supply m.token = ((committed s).supply m.token).map (· - m.burn))
    (hheld : m.amount ≤ (committed s).balance m.token m.sender) (hfee : m.fee ≤ m.amount - m.burn) :
    Conserves s b m ↔ m.Separate E ∧ m.BurnCovered (committed s) := by
  rw [Conserves, htotal, m.total_balances_iff hheld hfee, hsupply, Movement.BurnCovered]
  have hcovered : (∀ supply, (committed s).supply m.token = some supply →
        ∃ supply', ((committed s).supply m.token).map (· - m.burn) = some supply' ∧ supply' + m.burn = supply) ↔
      ∀ supply, (committed s).supply m.token = some supply → m.burn ≤ supply := by
    refine forall_congr' fun supply => forall_congr' fun hrecorded => ?_
    rw [hrecorded, Option.map_some]
    refine ⟨?_, fun hle => ⟨_, rfl, Nat.sub_add_cancel hle⟩⟩
    rintro ⟨_, ⟨⟩, heq⟩
    exact heq ▸ Nat.le_add_left _ _
  rw [hcovered, and_right_comm, and_comm (a := _ ∧ _)]

theorem conserves_transferToken {sender recipient : Address} {amount : Nat}
    (h : (transferToken (canonicalSovTokenId X) sender recipient amount).stage sledView s ∅ = .ok ((), b)) :
    Conserves s b (sovMovement X (committed s) sender recipient amount) ↔
      (sovMovement X (committed s) sender recipient amount).Separate E ∧
        (sovMovement X (committed s) sender recipient amount).BurnCovered (committed s) := by
  have hsupply := supply_transfer h (AList.notMem_empty _)
  obtain ⟨b₁, b₂, hdebit, hcredit, rfl⟩ := stage_transferToken_eq_ok.mp h
  obtain ⟨hn, rfl⟩ := stage_debitToken_eq_ok.mp hdebit
  obtain ⟨-, rfl⟩ := stage_creditToken_eq_ok.mp hcredit
  exact conserves_iff (total_writeBurn _) hsupply hn (Nat.zero_le _)

theorem conserves_tokenTransfer {b₁ b₂ b₃ : Batch Key.Val}
    (hdebit : (debitToken m.token m.sender m.amount).stage sledView s ∅ = .ok ((), b₁))
    (hcredit : (creditToken m.token m.recipient (m.amount - m.fee)).stage sledView s b₁ = .ok ((), b₂))
    (hfee : (creditToken m.token E.feeSinkAddress m.fee).stage sledView s b₂ = .ok ((), b₃))
    (hle : m.fee ≤ m.amount) (hburn : m.burn = 0) :
    Conserves s b₃ m ↔ m.Separate E ∧ m.BurnCovered (committed s) := by
  obtain ⟨hn, rfl⟩ := stage_debitToken_eq_ok.mp hdebit
  obtain ⟨-, rfl⟩ := stage_creditToken_eq_ok.mp hcredit
  obtain ⟨-, rfl⟩ := stage_creditToken_eq_ok.mp hfee
  refine conserves_iff ?_ ?_ hn (by omega)
  · rw [Movement.balances, Movement.credited, hburn, Nat.sub_zero]
  · rw [hburn]
    simp only [Nat.sub_zero, Option.map_id']
    exact staged_of_notMem (notMem_writeBalance (by simp) (notMem_writeBalance (by simp)
      (notMem_writeBalance (by simp) (AList.notMem_empty _) _) _) _)

/-! ## The transactions -/

variable {tx : Transaction} {height : Nat}

theorem conserves_debitWelfare {dao staker : Address} {amount : Nat} {b' : Batch Key.Val}
    (hwelfare : ∀ t, welfareTokenForDao X dao = some t → t ≠ m.token)
    (hdebit : (debitWelfare X dao staker amount).stage sledView s b = .ok ((), b')) :
    Conserves s b' m ↔ Conserves s b m := by
  unfold Execution.debitWelfare at hdebit
  split at hdebit
  · next t ht =>
    obtain ⟨-, rfl⟩ := stage_debitToken_eq_ok.mp hdebit
    exact conserves_writeBalance (hwelfare t ht) _ _ _
  · cases hdebit
    rfl

theorem conserves_staged {o : TxOutcome} (h : TxStaged X E s height tx ∅ o b)
    (hm : movement X E (committed s) tx = some m) (hwelfare : WelfareTokensDistinct X) :
    Conserves s b m ↔ m.Separate E ∧ m.BurnCovered (committed s) := by
  unfold movement at hm
  split at hm
  · next htype =>
    have hp := h.handler .tokenTransfer (applyTokenTransferTx X E tx) (by simp [applyTx, applyTransaction, htype])
    obtain ⟨data, hdata, -, b₁, b₂, b₃, hdebit, hcredit, hfee, rfl⟩ := stage_applyTokenTransferTx hp
    rw [hdata] at hm
    cases hm
    refine (conserves_insert (by simp) (by simp) _).trans ?_
    exact conserves_tokenTransfer hdebit hcredit hfee (transferFee_le data) rfl
  · next htype =>
    have hp := h.handler .treasuryAllocation (applyTreasuryAllocation X tx) (by simp [applyTx, applyTransaction, htype])
    obtain ⟨data, hdata, htransfer⟩ := stage_applyTreasuryAllocation hp
    rw [hdata] at hm
    cases hm
    exact conserves_transferToken htransfer
  · next htype =>
    have hp := h.handler .legacySystem (applyDaoStake X tx height) (by simp [applyTx, applyTransaction, htype])
    obtain ⟨data, t, b₁, hdata, -, ht, htransfer, hcredit⟩ := stage_applyDaoStake hp
    rw [hdata] at hm
    cases hm
    obtain ⟨-, rfl⟩ := stage_creditToken_eq_ok.mp hcredit
    refine (conserves_writeBalance (hwelfare _ _ ht) _ _ _).trans ((conserves_insert (by simp) (by simp) _).trans ?_)
    exact (conserves_insert (by simp) (by simp) _).trans (conserves_transferToken htransfer)
  · next htype =>
    have hp := h.handler .legacySystem (applyDaoUnstake X tx height) (by simp [applyTx, applyTransaction, htype])
    obtain ⟨data, record, b₁, b₂, hdata, hrecord, -, -, htransfer, hdebit, rfl⟩ := stage_applyDaoUnstake hp
    rw [hdata, Option.bind_some, hrecord] at hm
    cases hm
    refine (conserves_insert (by simp) (by simp) _).trans ((conserves_insert (by simp) (by simp) _).trans ?_)
    exact (conserves_debitWelfare (hwelfare _) hdebit).trans (conserves_transferToken htransfer)
  · cases hm

/-- A lone transfer, treasury allocation, stake or unstake leaves the token's total as it was, less the burn, which also
leaves the recorded supply, just if it writes each balance once and burns no more than it moves and than is recorded. -/
theorem lone_movement_conserves_total {st st' : SledStore} {block : Block} (h : AppliedAlone X E st block tx st')
    (hm : movement X E st.state tx = some m) (hwelfare : WelfareTokensDistinct X) :
    (tokenTotal st'.trees m.token + m.burn = tokenTotal st.trees m.token ∧
      ∀ supply, st.state.supply m.token = some supply →
        ∃ supply', st'.state.supply m.token = some supply' ∧ supply' + m.burn = supply) ↔
    m.Separate E ∧ m.BurnCovered st.state := by
  have htype : tx.transactionType ≠ .coinbase := by
    intro htype
    simp [movement, htype] at hm
  obtain ⟨o, b, hstaged, hstate⟩ := h.staged htype
  have hsupply : st'.state.supply m.token = (staged st.trees b).supply m.token :=
    hstate (.tokenSupply m.token) (by simp [Key.IsState, Key.tree])
  rw [tokenTotal_of_state hstate, hsupply]
  exact conserves_staged hstaged hm hwelfare

def transferTx (recipient : Address) : Transaction := tokenTx .tokenTransfer (.tokenTransfer ⟨7, 10, recipient, 100, 0⟩)

theorem lone_movement_conserves_total_to_another :
    ∃ st', AppliedAlone silentExternals defaultExecutor fundedStore (transferBlock 11) (transferTx 11) st' ∧
      tokenTotal st'.trees 7 = tokenTotal fundedStore.trees 7 := by
  have haccept : (applyBlock silentExternals defaultExecutor fundedStore (transferBlock 11)).toOption.map
      (fun r => r.1.txCount) = some 1 := by decide +kernel
  obtain ⟨⟨o, st'⟩, hok, -⟩ := exists_ok_of_map_eq_some haccept
  have halone : AppliedAlone silentExternals defaultExecutor fundedStore (transferBlock 11) (transferTx 11) st' :=
    ⟨rfl, by decide, o, hok⟩
  have hwelfare : WelfareTokensDistinct silentExternals := by
    intro dao t ht
    unfold welfareTokenForDao at ht
    split_ifs at ht <;> cases ht <;> decide
  refine ⟨st', halone, ?_⟩
  exact ((lone_movement_conserves_total (m := ⟨7, 10, 11, 100, 0, 0⟩) halone (by decide +kernel) hwelfare).mpr
    ⟨by decide, by decide, fun _ _ => Nat.zero_le _⟩).1

/-- The recipient of a transfer to oneself is credited on top of the committed balance, and the debit is lost. -/
theorem self_transfer_mints :
    ∃ st', AppliedAlone silentExternals defaultExecutor fundedStore (transferBlock 10) (transferTx 10) st' ∧
      tokenTotal fundedStore.trees 7 = 100 ∧ tokenTotal st'.trees 7 = 200 := by
  have haccept : (applyBlock silentExternals defaultExecutor fundedStore (transferBlock 10)).toOption.map
      (fun r => tokenTotal r.2.trees 7) = some 200 := by decide +kernel
  obtain ⟨⟨o, st'⟩, hok, htotal⟩ := exists_ok_of_map_eq_some haccept
  exact ⟨st', ⟨rfl, by decide, o, hok⟩, by decide +kernel, htotal⟩

end SovereignNetwork.Execution
