import SovereignNetwork.Execution.Lemmas.Utxos

/-!
# What a coinbase pays

The split of the reward assumes one output to the fee sink, the loop pays the fees to each of them, and the sum at the end
decides. The amounts of the outputs are computed apart from the writes here.
-/

namespace SovereignNetwork.Execution

open Lib Mutator

/-! ## Amounts and writes -/

section

variable (fees amountPerOutput remainder : Nat) (feeSink : Address)

/-- Does the output hold the fees? -/
def paysFees (output : TransactionOutput) : Bool := output.recipient.keyId = feeSink ∧ fees > 0

/-- The amounts of the outputs of a coinbase. The first reward output takes the remainder. -/
def coinbaseAmounts : List TransactionOutput → (rewardIndex : Nat) → List Nat
  | [], _ => []
  | output :: outputs, rewardIndex =>
    if paysFees fees feeSink output then fees :: coinbaseAmounts outputs rewardIndex
    else (if rewardIndex = 0 then amountPerOutput + remainder else amountPerOutput) ::
      coinbaseAmounts outputs (rewardIndex + 1)

end

def createUtxos (X : Externals) (txHash : Hash) (blockHeight : Nat) :
    List TransactionOutput → List Nat → (index : Nat) → TxProg Unit
  | output :: outputs, amount :: amounts, index => do
    createUtxo X ⟨txHash, wrapU32 index⟩ (outputUtxo output amount blockHeight)
    createUtxos X txHash blockHeight outputs amounts (index + 1)
  | _, _, _ => pure ()

def createUtxosWithAmounts (X : Externals) (txHash : Hash) (outputs : List TransactionOutput) (amounts : List Nat)
    (blockHeight : Nat) : TxProg Unit := do
  if outputs.length ≠ amounts.length then
    .fail (.internal "Output count doesn't match amount count")
  createUtxos X txHash blockHeight outputs amounts 0

def ownedSum (owner : Address) (outputs : List TransactionOutput) (amounts : List Nat) : Nat :=
  (((outputs.zip amounts).filter fun p => p.1.recipient.keyId = owner).map (·.2)).sum

variable {X : Externals} {s : AList Key.Val} {b b' : Batch Key.Val} {height : Nat} {hash : Hash}
  {fees amountPerOutput remainder index rewardIndex total total' : Nat} {feeSink : Address}
  {outputs : List TransactionOutput}

theorem length_coinbaseAmounts :
    (coinbaseAmounts fees amountPerOutput remainder feeSink outputs rewardIndex).length = outputs.length := by
  induction outputs generalizing rewardIndex with
  | nil => rfl
  | cons output outputs ih =>
    unfold coinbaseAmounts
    split <;> simp [ih]

theorem createCoinbaseOutputs_cons (X : Externals) (hash : Hash) (height fees : Nat) (feeSink : Address)
    (hfits : amountPerOutput + remainder ≤ u128Max) (output : TransactionOutput) (outputs : List TransactionOutput)
    (index rewardIndex total : Nat) :
    ∃ amount next, coinbaseAmounts fees amountPerOutput remainder feeSink (output :: outputs) rewardIndex =
        amount :: coinbaseAmounts fees amountPerOutput remainder feeSink outputs next ∧
      createCoinbaseOutputs X hash height fees amountPerOutput remainder feeSink (output :: outputs) index rewardIndex
          total =
        (createUtxo X ⟨hash, wrapU32 index⟩ (outputUtxo output amount height) >>= fun _ =>
          checkedAdd total amount >>=
            createCoinbaseOutputs X hash height fees amountPerOutput remainder feeSink outputs (index + 1) next) := by
  by_cases hsink : output.recipient.keyId = feeSink ∧ fees > 0
  · exact ⟨fees, rewardIndex, by simp [coinbaseAmounts, paysFees, hsink], by simp [createCoinbaseOutputs, hsink]⟩
  · have hpays : paysFees fees feeSink output = false := by simpa [paysFees] using hsink
    refine ⟨if rewardIndex = 0 then amountPerOutput + remainder else amountPerOutput, rewardIndex + 1,
      by simp only [coinbaseAmounts, hpays, Bool.false_eq_true, if_false], ?_⟩
    simp only [createCoinbaseOutputs, hsink, if_false, wrapU128_of_le hfits]

theorem stage_createCoinbaseOutputs_eq_ok (hfits : amountPerOutput + remainder ≤ u128Max) (htotal : total ≤ u128Max) :
    (createCoinbaseOutputs X hash height fees amountPerOutput remainder feeSink outputs index rewardIndex total).stage
        sledView s b = .ok (total', b') ↔
      total' = total + (coinbaseAmounts fees amountPerOutput remainder feeSink outputs rewardIndex).sum ∧
        total' ≤ u128Max ∧
        (createUtxos X hash height outputs (coinbaseAmounts fees amountPerOutput remainder feeSink outputs rewardIndex)
          index).stage sledView s b = .ok ((), b') := by
  induction outputs generalizing index rewardIndex total b with
  | nil =>
    simp only [createCoinbaseOutputs, coinbaseAmounts, createUtxos, Prog.stage_pure, List.sum_nil, Nat.add_zero]
    constructor
    · rintro ⟨⟩
      exact ⟨rfl, htotal, rfl⟩
    · rintro ⟨rfl, -, ⟨⟩⟩
      rfl
  | cons output outputs ih =>
    obtain ⟨amount, next, hamounts, hprog⟩ :=
      createCoinbaseOutputs_cons X hash height fees feeSink hfits output outputs index rewardIndex total
    rw [hprog, hamounts, createUtxos, List.sum_cons]
    constructor
    · intro h
      obtain ⟨⟨⟩, b₁, hcreate, h⟩ := Prog.stage_bind_eq_ok.mp h
      obtain ⟨sum, b₂, hadd, h⟩ := Prog.stage_bind_eq_ok.mp h
      obtain ⟨hle, ⟨⟩⟩ := stage_checkedAdd_eq_ok.mp hadd
      obtain ⟨hsum, hmax, hrest⟩ := (ih hle).mp h
      exact ⟨by omega, hmax, Prog.stage_bind_eq_ok.mpr ⟨(), b₁, hcreate, hrest⟩⟩
    · rintro ⟨hsum, hmax, h⟩
      obtain ⟨⟨⟩, b₁, hcreate, hrest⟩ := Prog.stage_bind_eq_ok.mp h
      have hle : total + amount ≤ u128Max := by omega
      have hloop := (ih hle).mpr ⟨hsum.trans (Nat.add_assoc ..).symm, hmax, hrest⟩
      exact Prog.stage_bind_eq_ok.mpr ⟨(), b₁, hcreate, Prog.stage_bind_eq_ok.mpr ⟨total + amount, b₁,
        stage_checkedAdd_eq_ok.mpr ⟨hle, rfl⟩, hloop⟩⟩

/-! ## What the amounts add up to -/

theorem sum_coinbaseAmounts :
    (coinbaseAmounts fees amountPerOutput remainder feeSink outputs rewardIndex).sum =
      outputs.countP (paysFees fees feeSink) * fees + outputs.countP (!paysFees fees feeSink ·) * amountPerOutput +
        if rewardIndex = 0 ∧ 0 < outputs.countP (!paysFees fees feeSink ·) then remainder else 0 := by
  induction outputs generalizing rewardIndex with
  | nil => simp [coinbaseAmounts]
  | cons output outputs ih =>
    rw [List.countP_cons, List.countP_cons, coinbaseAmounts]
    cases hpays : paysFees fees feeSink output with
    | true =>
      simp only [if_true, Bool.not_true, Bool.false_eq_true, if_false, List.sum_cons, ih, Nat.add_zero, Nat.add_mul,
        Nat.one_mul]
      omega
    | false =>
      simp only [Bool.false_eq_true, if_false, Bool.not_false, if_true, List.sum_cons, ih, Nat.add_zero, Nat.add_mul,
        Nat.one_mul, Nat.add_one_ne_zero, false_and]
      split <;> simp_all <;> omega

theorem pos_of_mem_coinbaseAmounts {amount : Nat}
    (hshare : ∀ output ∈ outputs, ¬ paysFees fees feeSink output → 0 < amountPerOutput)
    (h : amount ∈ coinbaseAmounts fees amountPerOutput remainder feeSink outputs rewardIndex) : 0 < amount := by
  induction outputs generalizing rewardIndex with
  | nil => cases h
  | cons output outputs ih =>
    have hrest : ∀ output ∈ outputs, ¬ paysFees fees feeSink output → 0 < amountPerOutput :=
      fun output hmem => hshare output (List.mem_cons_of_mem _ hmem)
    unfold coinbaseAmounts at h
    split at h
    · next hpays =>
      rcases List.mem_cons.mp h with rfl | h
      · simp only [paysFees, decide_eq_true_eq] at hpays
        exact hpays.2
      · exact ih hrest h
    · next hpays =>
      have hpos := hshare output List.mem_cons_self hpays
      rcases List.mem_cons.mp h with rfl | h
      · split <;> omega
      · exact ih hrest h

theorem fees_le_ownedSum (h : ∃ output ∈ outputs, paysFees fees feeSink output) :
    fees ≤ ownedSum feeSink outputs (coinbaseAmounts fees amountPerOutput remainder feeSink outputs rewardIndex) := by
  induction outputs generalizing rewardIndex with
  | nil =>
    obtain ⟨output, hmem, -⟩ := h
    cases hmem
  | cons output outputs ih =>
    unfold coinbaseAmounts
    split
    · next hpays =>
      have howner : output.recipient.keyId = feeSink := by
        simp only [paysFees, decide_eq_true_eq] at hpays
        exact hpays.1
      simp [ownedSum, howner]
    · next hpays =>
      obtain ⟨output', hmem, hpays'⟩ := h
      have hmem' : output' ∈ outputs := by
        rcases List.mem_cons.mp hmem with rfl | hmem
        · exact absurd hpays' hpays
        · exact hmem
      have hrest : fees ≤ ownedSum feeSink outputs
          (coinbaseAmounts fees amountPerOutput remainder feeSink outputs (rewardIndex + 1)) :=
        ih ⟨output', hmem', hpays'⟩
      refine hrest.trans ?_
      simp only [ownedSum, List.zip_cons_cons, List.filter_cons]
      split <;> simp

/-! ## The coinbase -/

variable {tx : Transaction} {reward : Nat} {o : CoinbaseOutcome}

/-- The outputs that share the reward if one of them holds the fees. -/
def rewardOutputCount (fees outputs : Nat) : Nat := if fees > 0 then outputs - 1 else outputs

def rewardShare (reward count : Nat) : Nat := if count > 0 then reward / count else 0

def rewardRemainder (reward count : Nat) : Nat := if count > 0 then reward % count else 0

theorem rewardShare_add_rewardRemainder_le (reward count : Nat) :
    rewardShare reward count + rewardRemainder reward count ≤ reward := by
  unfold rewardShare rewardRemainder
  split
  · next hcount =>
    have hle := Nat.le_mul_of_pos_left (reward / count) hcount
    have hdiv := Nat.div_add_mod reward count
    omega
  · omega

def rewardAmounts (reward fees : Nat) (feeSink : Address) (outputs : List TransactionOutput) : List Nat :=
  let count := rewardOutputCount fees outputs.length
  coinbaseAmounts fees (rewardShare reward count) (rewardRemainder reward count) feeSink outputs 0

theorem stage_applyCoinbase_eq_ok :
    (∃ o, (applyCoinbase X tx hash height reward fees feeSink).stage sledView s b = .ok (o, b')) ↔
      tx.inputs = [] ∧ tx.outputs ≠ [] ∧ reward + fees ≤ u128Max ∧
        (0 < fees → ∃ output ∈ tx.outputs, output.recipient.keyId = feeSink) ∧
        (0 < rewardOutputCount fees tx.outputs.length → rewardOutputCount fees tx.outputs.length ≤ reward) ∧
        (rewardAmounts reward fees feeSink tx.outputs).sum = reward + fees ∧
        (createUtxosWithAmounts X hash tx.outputs (rewardAmounts reward fees feeSink tx.outputs) height).stage
          sledView s b = .ok ((), b') := by
  have hshare := rewardShare_add_rewardRemainder_le reward (rewardOutputCount fees tx.outputs.length)
  constructor
  · rintro ⟨o, h⟩
    unfold applyCoinbase at h
    rcases Prog.stage_ite_eq_ok.mp h with ⟨-, h⟩ | ⟨hinputs, h⟩
    · cases h
    rcases Prog.stage_ite_eq_ok.mp h with ⟨-, h⟩ | ⟨houtputs, h⟩
    · cases h
    obtain ⟨expected, b₁, hadd, h⟩ := Prog.stage_bind_eq_ok.mp h
    obtain ⟨hfits, ⟨⟩⟩ := stage_checkedAdd_eq_ok.mp hadd
    rcases Prog.stage_ite_eq_ok.mp h with ⟨-, h⟩ | ⟨hsink, h⟩
    · cases h
    rcases Prog.stage_ite_eq_ok.mp h with ⟨-, h⟩ | ⟨hreward, h⟩
    · cases h
    obtain ⟨created, b₂, hcreate, h⟩ := Prog.stage_bind_eq_ok.mp h
    rcases Prog.stage_ite_eq_ok.mp h with ⟨-, h⟩ | ⟨hsum, h⟩
    · cases h
    cases h
    obtain ⟨hcreated, -, hwrites⟩ :=
      (stage_createCoinbaseOutputs_eq_ok (hshare.trans (by omega)) (Nat.zero_le _)).mp hcreate
    refine ⟨by simpa using hinputs, by simpa using houtputs, hfits, fun hfees => ?_, fun hcount => ?_, ?_, ?_⟩
    · by_contra hnone
      exact hsink ⟨hfees, by simpa using hnone⟩
    · exact Nat.le_of_not_lt fun hlt => hreward ⟨hcount, hlt⟩
    · exact (hcreated.trans (Nat.zero_add _)).symm.trans (not_not.mp hsum)
    · exact Prog.stage_ite_eq_ok.mpr (.inr ⟨not_not.mpr length_coinbaseAmounts.symm, hwrites⟩)
  · rintro ⟨hinputs, houtputs, hfits, hsink, hreward, hsum, hwrites⟩
    rcases Prog.stage_ite_eq_ok.mp hwrites with ⟨-, hwrites⟩ | ⟨-, hwrites⟩
    · cases hwrites
    have hcreate := (stage_createCoinbaseOutputs_eq_ok (hshare.trans (by omega)) (Nat.zero_le _)).mpr
      ⟨(hsum.symm.trans (Nat.zero_add _).symm), hfits, hwrites⟩
    let found := tx.outputs.any fun output => output.recipient.keyId = feeSink
    refine ⟨⟨tx.outputs.length, reward, fees, found && decide (fees > 0)⟩, ?_⟩
    unfold applyCoinbase
    refine Prog.stage_ite_eq_ok.mpr (.inr ⟨by simpa using hinputs, ?_⟩)
    refine Prog.stage_ite_eq_ok.mpr (.inr ⟨by simpa using houtputs, ?_⟩)
    refine Prog.stage_bind_eq_ok.mpr ⟨reward + fees, b, stage_checkedAdd_eq_ok.mpr ⟨hfits, rfl⟩, ?_⟩
    refine Prog.stage_ite_eq_ok.mpr (.inr ⟨?_, ?_⟩)
    · rintro ⟨hfees, hnone⟩
      obtain ⟨output, hmem, howner⟩ := hsink hfees
      simp only [Bool.not_eq_true', List.any_eq_false, decide_eq_true_eq] at hnone
      exact hnone output hmem howner
    refine Prog.stage_ite_eq_ok.mpr (.inr ⟨?_, ?_⟩)
    · rintro ⟨hcount, hlt⟩
      exact absurd (hreward hcount) (Nat.not_le.mpr hlt)
    refine Prog.stage_bind_eq_ok.mpr ⟨reward + fees, b', hcreate, ?_⟩
    exact Prog.stage_ite_eq_ok.mpr (.inr ⟨not_not.mpr rfl, rfl⟩)

theorem share_pos {outputs : List TransactionOutput} (houtputs : outputs ≠ [])
    (hsink : 0 < fees → ∃ output ∈ outputs, output.recipient.keyId = feeSink)
    (hreward : 0 < rewardOutputCount fees outputs.length → rewardOutputCount fees outputs.length ≤ reward) :
    ∀ output ∈ outputs, ¬ paysFees fees feeSink output →
      0 < rewardShare reward (rewardOutputCount fees outputs.length) := by
  intro output hmem hpays
  by_cases hcount : 0 < rewardOutputCount fees outputs.length
  · rw [rewardShare, if_pos hcount]
    exact Nat.div_pos (hreward hcount) hcount
  · -- Without a reward output there is one output, and it holds the fees.
    have hlength := List.length_pos_iff.mpr houtputs
    have hfees : 0 < fees := by
      by_contra hzero
      rw [rewardOutputCount, if_neg hzero] at hcount
      exact hcount hlength
    rw [rewardOutputCount, if_pos hfees] at hcount
    obtain ⟨output', hmem', howner⟩ := hsink hfees
    obtain ⟨only, rfl⟩ := List.length_eq_one_iff.mp (show outputs.length = 1 by omega)
    rw [List.mem_singleton] at hmem hmem'
    subst hmem hmem'
    exact absurd (by simpa [paysFees] using ⟨howner, hfees⟩) hpays

theorem sum_rewardAmounts {outputs : List TransactionOutput}
    (hshape : outputs.countP (fun output => output.recipient.keyId = feeSink) = 1 ∧ 2 ≤ outputs.length ∨
      fees = 0 ∧ outputs ≠ []) : (rewardAmounts reward fees feeSink outputs).sum = reward + fees := by
  have hsplit : outputs.length =
      outputs.countP (paysFees fees feeSink) + outputs.countP (!paysFees fees feeSink ·) := by
    simpa using List.length_eq_countP_add_countP (paysFees fees feeSink) (l := outputs)
  have hcount : outputs.countP (paysFees fees feeSink) * fees = fees ∧
      outputs.countP (!paysFees fees feeSink ·) = rewardOutputCount fees outputs.length ∧
      0 < rewardOutputCount fees outputs.length := by
    by_cases hfees : 0 < fees
    · have hpays : outputs.countP (paysFees fees feeSink) = outputs.countP fun output => output.recipient.keyId = feeSink :=
        List.countP_congr fun output _ => by simp [paysFees, hfees]
      obtain ⟨hone, hlength⟩ | ⟨hzero, -⟩ := hshape
      · rw [hpays, hone, rewardOutputCount, if_pos hfees]
        exact ⟨Nat.one_mul _, by omega, by omega⟩
      · omega
    · have hpays : outputs.countP (paysFees fees feeSink) = 0 :=
        List.countP_eq_zero.mpr fun output _ => by simp [paysFees, hfees]
      have hlength : 0 < outputs.length := by
        obtain ⟨-, hlength⟩ | ⟨-, hne⟩ := hshape
        · omega
        · exact List.length_pos_iff.mpr hne
      rw [hpays, rewardOutputCount, if_neg hfees]
      exact ⟨by omega, by omega, hlength⟩
  obtain ⟨hfees, hothers, hpos⟩ := hcount
  have hdiv := Nat.div_add_mod reward (rewardOutputCount fees outputs.length)
  rw [rewardAmounts, sum_coinbaseAmounts, hfees, hothers, if_pos ⟨rfl, hpos⟩, rewardShare, rewardRemainder, if_pos hpos,
    if_pos hpos]
  omega

theorem lookup_createUtxos {outputs : List TransactionOutput} {amounts : List Nat}
    (hcount : index + outputs.length ≤ 2 ^ 32)
    (h : (createUtxos X hash height outputs amounts index).stage sledView s b = .ok ((), b')) :
    (∀ j < index, b'.lookup (.utxo ⟨hash, j⟩) = b.lookup (.utxo ⟨hash, j⟩)) ∧
      ∀ i output amount, outputs[i]? = some output → amounts[i]? = some amount →
        b'.lookup (.utxo ⟨hash, index + i⟩) = some (some (outputUtxo output amount height)) := by
  induction outputs generalizing amounts index b with
  | nil =>
    cases h
    exact ⟨fun _ _ => rfl, fun i output amount houtput => by simp at houtput⟩
  | cons output outputs ih =>
    cases amounts with
    | nil =>
      cases h
      exact ⟨fun _ _ => rfl, fun i output amount _ hamount => by simp at hamount⟩
    | cons amount amounts =>
      obtain ⟨⟨⟩, b₁, hcreate, h⟩ := Prog.stage_bind_eq_ok.mp h
      have hwritten := stage_createUtxo hcreate
      rw [List.length_cons] at hcount
      obtain ⟨hbefore, hafter⟩ := ih (by omega) h
      have hindex : wrapU32 index = index := Nat.mod_eq_of_lt (by omega)
      rw [hindex] at hwritten
      refine ⟨fun j hj => ?_, fun i output' amount' houtput hamount => ?_⟩
      · rw [hbefore j (by omega), hwritten, if_neg (by simp; omega)]
      · cases i with
        | zero =>
          cases houtput
          cases hamount
          rw [Nat.add_zero, hbefore index (by omega), hwritten, if_pos rfl]
        | succ i =>
          rw [← Nat.add_assoc, Nat.add_right_comm]
          exact hafter i output' amount' houtput hamount

/-- A coinbase that is applied pays the reward and the fees, all outputs positive and the fees to their sink. It is applied
when one output is the sink's and others share the reward, or when there are no fees. -/
theorem coinbase_pays_reward_and_fees (X : Externals) (s : AList Key.Val) (b : Batch Key.Val) (tx : Transaction)
    (hash : Hash) (height reward fees : Nat) (feeSink : Address) :
    (∀ o b', (applyCoinbase X tx hash height reward fees feeSink).stage sledView s b = .ok (o, b') →
        ∃ amounts, (createUtxosWithAmounts X hash tx.outputs amounts height).stage sledView s b = .ok ((), b') ∧
          (tx.outputs.length ≤ 2 ^ 32 → ∀ i output amount, tx.outputs[i]? = some output → amounts[i]? = some amount →
            b'.lookup (.utxo ⟨hash, i⟩) = some (some (outputUtxo output amount height))) ∧
          (∀ amount ∈ amounts, 0 < amount) ∧ amounts.sum = reward + fees ∧ fees ≤ ownedSum feeSink tx.outputs amounts) ∧
      (tx.inputs = [] → reward + fees ≤ u128Max →
        (∀ amounts, amounts.length = tx.outputs.length →
          ∃ b', (createUtxosWithAmounts X hash tx.outputs amounts height).stage sledView s b = .ok ((), b')) →
        tx.outputs.length ≤ reward →
        (tx.outputs.countP (fun output => output.recipient.keyId = feeSink) = 1 ∧ 2 ≤ tx.outputs.length ∨
          fees = 0 ∧ tx.outputs ≠ []) →
        ∃ o b', (applyCoinbase X tx hash height reward fees feeSink).stage sledView s b = .ok (o, b')) := by
  constructor
  · intro o b' h
    obtain ⟨-, houtputs, -, hsink, hreward, hsum, hwrites⟩ := stage_applyCoinbase_eq_ok.mp ⟨o, h⟩
    refine ⟨rewardAmounts reward fees feeSink tx.outputs, hwrites, fun hcount i output amount houtput hamount => ?_,
      fun amount hmem => pos_of_mem_coinbaseAmounts (share_pos houtputs hsink hreward) hmem, hsum, ?_⟩
    · rcases Prog.stage_ite_eq_ok.mp hwrites with ⟨-, hwrites⟩ | ⟨-, hwrites⟩
      · cases hwrites
      · have hlookup := (lookup_createUtxos (by omega) hwrites).2 i output amount houtput hamount
        rwa [Nat.zero_add] at hlookup
    · by_cases hfees : 0 < fees
      · obtain ⟨output, hmem, howner⟩ := hsink hfees
        exact fees_le_ownedSum ⟨output, hmem, by simpa [paysFees] using ⟨howner, hfees⟩⟩
      · omega
  · intro hinputs hfits hwrites hreward hshape
    obtain ⟨b', hwrites⟩ := hwrites (rewardAmounts reward fees feeSink tx.outputs) length_coinbaseAmounts
    have houtputs : tx.outputs ≠ [] := by
      rintro hnil
      simp [hnil] at hshape
    have hsink : 0 < fees → ∃ output ∈ tx.outputs, output.recipient.keyId = feeSink := by
      intro hfees
      obtain ⟨hone, -⟩ | ⟨hzero, -⟩ := hshape
      · have hpos : 0 < tx.outputs.countP (fun output => output.recipient.keyId = feeSink) := by omega
        simpa using List.countP_pos_iff.mp hpos
      · omega
    have hcount : rewardOutputCount fees tx.outputs.length ≤ tx.outputs.length := by
      unfold rewardOutputCount
      split <;> omega
    obtain ⟨o, h⟩ := stage_applyCoinbase_eq_ok.mpr ⟨hinputs, houtputs, hfits, hsink, fun _ => hcount.trans hreward,
      sum_rewardAmounts hshape, hwrites⟩
    exact ⟨o, b', h⟩

def coinbaseForTwo : Transaction :=
  { tokenTx .coinbase .none with outputs := [⟨0, 0, .ofKeyId 9, 0⟩, ⟨0, 0, .ofKeyId 10, 0⟩] }

theorem coinbase_for_two_is_applied :
    ∃ o b', (applyCoinbase silentExternals coinbaseForTwo 1 5 50 7 9).stage sledView ∅ ∅ = .ok (o, b') ∧
      ∃ amounts, (createUtxosWithAmounts silentExternals 1 coinbaseForTwo.outputs amounts 5).stage sledView ∅ ∅ =
        .ok ((), b') ∧ amounts.sum = 57 := by
  have hpays := coinbase_pays_reward_and_fees silentExternals ∅ ∅ coinbaseForTwo 1 5 50 7 9
  have hstore : ∀ amounts, amounts.length = coinbaseForTwo.outputs.length →
      ∃ b', (createUtxosWithAmounts silentExternals 1 coinbaseForTwo.outputs amounts 5).stage sledView ∅ ∅ =
        .ok ((), b') := by
    intro amounts hlength
    match amounts, hlength with
    | [first, second], _ => exact ⟨_, rfl⟩
  obtain ⟨o, b', h⟩ := hpays.2 rfl (by decide) hstore (by decide) (.inl ⟨by decide, by decide⟩)
  obtain ⟨amounts, hwrites, -, -, hsum, -⟩ := hpays.1 o b' h
  exact ⟨o, b', h, amounts, hwrites, hsum⟩

end SovereignNetwork.Execution
