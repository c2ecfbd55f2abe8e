import SovereignNetwork.Execution.Lemmas.Blocks

/-!
# What transfers and coinbases do to the UTXO set
-/

namespace SovereignNetwork.Execution

open Lib Mutator

variable {X : Externals} {E : BlockExecutor} {s : AList Key.Val} {b b' : Batch Key.Val} {height : Nat}

def utxoWeight : (k : Key) → k.Val → Nat
  | .utxo _, (u : Utxo) => u.amount
  | _, _ => 0

def utxoTotal (m : AList Key.Val) : Nat := total utxoWeight m

theorem utxoWeight_eq_zero {k : Key} (hk : ∀ op, k ≠ .utxo op) (v : k.Val) : utxoWeight k v = 0 := by
  cases k with
  | utxo op => exact absurd rfl (hk op)
  | _ => rfl

theorem utxo_notMem_merkleTrees (op : OutPoint) : (Key.utxo op).tree ∉ merkleTrees := by
  simp [Key.tree, merkleTrees]

/-! ## One outpoint -/

/-- Of the UTXO set, the batch has one more write. -/
def UtxoWritten (b : Batch Key.Val) (op : OutPoint) (v : Option Utxo) (b' : Batch Key.Val) : Prop :=
  ∀ op', b'.lookup (Key.utxo op') = if op' = op then some v else b.lookup (Key.utxo op')

theorem totalAfter_utxo_congr (h : ∀ op, b'.lookup (.utxo op) = b.lookup (.utxo op)) :
    totalAfter utxoWeight s b' = totalAfter utxoWeight s b := by
  refine totalAfter_frame fun k => ?_
  by_cases hk : ∃ op, k = .utxo op
  · obtain ⟨op, rfl⟩ := hk
    exact .inr (h op)
  · exact .inl (utxoWeight_eq_zero fun op heq => hk ⟨op, heq⟩)

theorem UtxoWritten.total {op : OutPoint} {v : Option Utxo} (h : UtxoWritten b op v b')
    (hb : b.lookup (.utxo op) = none) :
    totalAfter utxoWeight s b' + weight utxoWeight (.utxo op) ((committed s).utxo op) =
      totalAfter utxoWeight s b + weight utxoWeight (.utxo op) v := by
  have hinsert : totalAfter utxoWeight s b' = totalAfter utxoWeight s (b.insert (.utxo op) v) := by
    refine totalAfter_utxo_congr fun op' => (h op').trans ?_
    split
    · next heq =>
      subst heq
      exact (AList.lookup_insert (a := .utxo op') (b := v) b).symm
    · next hne => exact (AList.lookup_insert_ne fun heq => hne (Key.utxo.inj heq)).symm
  have hold : latest s b (.utxo op) = (committed s).utxo op := staged_of_lookup hb
  rw [hinsert, ← hold]
  exact totalAfter_insert s b (.utxo op) v

theorem stage_spendUtxo {op : OutPoint} {u : Utxo} (h : (spendUtxo X op).stage sledView s b = .ok (u, b')) :
    (committed s).utxo op = some u ∧ UtxoWritten b op none b' := by
  unfold spendUtxo at h
  obtain ⟨found, b₁, hget, h⟩ := Prog.stage_bind_eq_ok.mp h
  rw [stage_getUtxo] at hget
  cases hget
  obtain ⟨u', b₂, hsome, h⟩ := Prog.stage_bind_eq_ok.mp h
  obtain ⟨hsome, rfl⟩ := stage_requireSome_eq_ok.mp hsome
  obtain ⟨⟨⟩, b₃, hdelete, h⟩ := Prog.stage_bind_eq_ok.mp h
  have hwritten : UtxoWritten b op none b₃ := by
    cases hdelete
    intro op'
    split
    · next heq =>
      rw [heq]
      exact AList.lookup_insert b
    · next hne => exact AList.lookup_insert_ne fun heq => hne (Key.utxo.inj heq)
  rcases Prog.stage_ite_eq_ok.mp h with ⟨-, h⟩ | ⟨-, h⟩
  · obtain ⟨⟨⟩, b₄, hleaf, hdone⟩ := Prog.stage_bind_eq_ok.mp h
    cases hdone
    refine ⟨hsome, fun op' => ?_⟩
    rw [(writesIn_deleteUtxoMerkleLeaf op).lookup_eq hleaf (utxo_notMem_merkleTrees op'), hwritten op']
  · cases h
    exact ⟨hsome, hwritten⟩

theorem stage_createUtxo {op : OutPoint} {u : Utxo} {r : Unit}
    (h : (createUtxo X op u).stage sledView s b = .ok (r, b')) : UtxoWritten b op (some u) b' := by
  unfold createUtxo at h
  obtain ⟨⟨⟩, b₁, hput, h⟩ := Prog.stage_bind_eq_ok.mp h
  have hwritten : UtxoWritten b op (some u) b₁ := by
    cases hput
    intro op'
    split
    · next heq =>
      rw [heq]
      exact AList.lookup_insert b
    · next hne => exact AList.lookup_insert_ne fun heq => hne (Key.utxo.inj heq)
  split at h
  · next leaf _ =>
    obtain ⟨index, b₂, hleaf, hdone⟩ := Prog.stage_bind_eq_ok.mp h
    cases hdone
    intro op'
    rw [(writesIn_putUtxoMerkleLeaf op leaf).lookup_eq (Prog.stage_mapError_eq_ok.mp hleaf) (utxo_notMem_merkleTrees op'),
      hwritten op']
  · cases h
    exact hwritten

/-! ## The inputs -/

theorem nodup_of_duplicateInput {inputs : List TransactionInput} {seen : List OutPoint}
    (h : duplicateInput seen inputs = none) :
    (inputs.map (·.outPoint)).Nodup ∧ ∀ op ∈ seen, op ∉ inputs.map (·.outPoint) := by
  induction inputs generalizing seen with
  | nil => simp
  | cons input inputs ih =>
    unfold duplicateInput at h
    split at h
    · cases h
    · next hnew =>
      obtain ⟨hnodup, hseen⟩ := ih h
      refine ⟨List.nodup_cons.mpr ⟨hseen _ List.mem_cons_self, hnodup⟩, fun op hop => ?_⟩
      rw [List.map_cons, List.mem_cons, not_or]
      exact ⟨fun heq => hnew (heq ▸ hop), hseen op (List.mem_cons_of_mem _ hop)⟩

theorem unspent_of_spendInputs {inputs : List TransactionInput} {sum sum' : Nat}
    (h : (spendInputs X inputs sum).stage sledView s b = .ok (sum', b')) :
    ∀ op ∈ inputs.map (·.outPoint), (committed s).utxo op ≠ none := by
  induction inputs generalizing sum b with
  | nil => simp
  | cons input inputs ih =>
    obtain ⟨u, b₁, hspend, h⟩ := Prog.stage_bind_eq_ok.mp h
    obtain ⟨sum₁, b₂, hadd, h⟩ := Prog.stage_bind_eq_ok.mp h
    intro op hop
    rcases List.mem_cons.mp hop with rfl | hop
    · rw [(stage_spendUtxo hspend).1]
      exact Option.some_ne_none _
    · exact ih h op hop

structure InputsSpent (s : AList Key.Val) (ops : List OutPoint) (sum sum' : Nat) (b b' : Batch Key.Val) : Prop where
  lookup : ∀ op, b'.lookup (.utxo op) = if op ∈ ops then some none else b.lookup (.utxo op)
  total : totalAfter utxoWeight s b' + sum' = totalAfter utxoWeight s b + sum

theorem stage_spendInputs {inputs : List TransactionInput} {sum sum' : Nat}
    (h : (spendInputs X inputs sum).stage sledView s b = .ok (sum', b')) (hnodup : (inputs.map (·.outPoint)).Nodup)
    (hb : ∀ op ∈ inputs.map (·.outPoint), b.lookup (.utxo op) = none) :
    InputsSpent s (inputs.map (·.outPoint)) sum sum' b b' := by
  induction inputs generalizing sum b with
  | nil =>
    cases h
    exact ⟨by simp, rfl⟩
  | cons input inputs ih =>
    obtain ⟨u, b₁, hspend, h⟩ := Prog.stage_bind_eq_ok.mp h
    obtain ⟨hu, hwritten⟩ := stage_spendUtxo hspend
    obtain ⟨sum₁, b₂, hadd, h⟩ := Prog.stage_bind_eq_ok.mp h
    obtain ⟨-, hadd⟩ := stage_checkedAdd_eq_ok.mp hadd
    cases hadd
    obtain ⟨hnew, hnodup⟩ := List.nodup_cons.mp hnodup
    have hrest : ∀ op ∈ inputs.map (·.outPoint), b₁.lookup (.utxo op) = none := by
      intro op hop
      rw [hwritten op, if_neg]
      · exact hb op (List.mem_cons_of_mem _ hop)
      · rintro rfl
        exact hnew hop
    have ih := ih h hnodup hrest
    have htotal := hwritten.total (s := s) (hb _ List.mem_cons_self)
    rw [hu, weight_some, weight_none] at htotal
    refine ⟨fun op => ?_, ?_⟩
    · rw [ih.lookup, hwritten op, List.map_cons]
      by_cases hhead : op = input.outPoint <;> simp [hhead]
    · have hsum := ih.total
      change totalAfter utxoWeight s b₁ + u.amount = _ at htotal
      omega

/-! ## The outputs -/

/-- Outputs of the transaction with the given hash were added, from `index` on. -/
structure OutputsCreated (s : AList Key.Val) (hash : Hash) (index count sum sum' : Nat) (b b' : Batch Key.Val) :
    Prop where
  others : ∀ op : OutPoint, op.tx ≠ hash → b'.lookup (.utxo op) = b.lookup (.utxo op)
  total : index + count ≤ 2 ^ 32 →
    (∀ i, index ≤ i → b.lookup (.utxo ⟨hash, i⟩) = none ∧ (committed s).utxo ⟨hash, i⟩ = none) →
    totalAfter utxoWeight s b' + sum = totalAfter utxoWeight s b + sum'

theorem OutputsCreated.refl (hash : Hash) (index sum : Nat) : OutputsCreated s hash index 0 sum sum b b :=
  ⟨fun _ _ => rfl, fun _ _ => rfl⟩

theorem OutputsCreated.cons {hash : Hash} {index count sum sum' : Nat} {u : Utxo} {b₁ : Batch Key.Val}
    (hwritten : UtxoWritten b ⟨hash, wrapU32 index⟩ (some u) b₁)
    (h : OutputsCreated s hash (index + 1) count (sum + u.amount) sum' b₁ b') :
    OutputsCreated s hash index (count + 1) sum sum' b b' where
  others op hop := by
    rw [h.others op hop, hwritten op, if_neg fun heq => hop (by rw [heq])]
  total hcount hfresh := by
    have hindex : wrapU32 index = index := Nat.mod_eq_of_lt (by omega)
    rw [hindex] at hwritten
    obtain ⟨hb, hs⟩ := hfresh index le_rfl
    have hhead := hwritten.total (s := s) hb
    rw [hs, weight_some, weight_none] at hhead
    have htail := h.total (by omega) fun i hi => by
      obtain ⟨hb, hs⟩ := hfresh i (by omega)
      refine ⟨?_, hs⟩
      rw [hwritten, if_neg, hb]
      intro heq
      have := congrArg OutPoint.index heq
      simp only at this
      omega
    change _ = totalAfter utxoWeight s b + u.amount at hhead
    omega

theorem stage_createTransferOutputs {hash : Hash} {amountPerOutput remainder : Nat} {outputs : List TransactionOutput}
    {index sum sum' : Nat}
    (h : (createTransferOutputs X hash height amountPerOutput remainder outputs index sum).stage sledView s b =
      .ok (sum', b')) : OutputsCreated s hash index outputs.length sum sum' b b' := by
  induction outputs generalizing index sum b with
  | nil =>
    cases h
    exact .refl hash index _
  | cons output outputs ih =>
    have hrest : ∀ {amount : Nat}, (do
        if amount = 0 then
          Prog.fail (TxApplyError.zeroAmountOutput index)
        createUtxo X ⟨hash, wrapU32 index⟩ (outputUtxo output amount height)
        let totalOutput ← checkedAdd sum amount
        createTransferOutputs X hash height amountPerOutput remainder outputs (index + 1) totalOutput).stage sledView s b =
          .ok (sum', b') → OutputsCreated s hash index (outputs.length + 1) sum sum' b b' := by
      intro amount h
      rcases Prog.stage_ite_eq_ok.mp h with ⟨-, h⟩ | ⟨-, h⟩
      · cases h
      obtain ⟨⟨⟩, b₁, hcreate, h⟩ := Prog.stage_bind_eq_ok.mp h
      obtain ⟨sum₁, b₂, hadd, h⟩ := Prog.stage_bind_eq_ok.mp h
      obtain ⟨-, hadd⟩ := stage_checkedAdd_eq_ok.mp hadd
      cases hadd
      exact .cons (stage_createUtxo hcreate) (ih h)
    unfold createTransferOutputs at h
    rcases Prog.stage_ite_eq_ok.mp h with ⟨-, h⟩ | ⟨-, h⟩
    · obtain ⟨amount, b₁, hadd, h⟩ := Prog.stage_bind_eq_ok.mp h
      obtain ⟨-, hadd⟩ := stage_checkedAdd_eq_ok.mp hadd
      cases hadd
      exact hrest h
    · exact hrest h

theorem stage_createCoinbaseOutputs {hash : Hash} {fees amountPerOutput remainder : Nat} {feeSink : Address}
    {outputs : List TransactionOutput} {index rewardIndex sum sum' : Nat}
    (h : (createCoinbaseOutputs X hash height fees amountPerOutput remainder feeSink outputs index rewardIndex sum).stage
      sledView s b = .ok (sum', b')) : OutputsCreated s hash index outputs.length sum sum' b b' := by
  induction outputs generalizing index rewardIndex sum b with
  | nil =>
    cases h
    exact .refl hash index _
  | cons output outputs ih =>
    obtain ⟨⟨⟩, b₁, hcreate, h⟩ := Prog.stage_bind_eq_ok.mp h
    obtain ⟨sum₁, b₂, hadd, h⟩ := Prog.stage_bind_eq_ok.mp h
    obtain ⟨-, hadd⟩ := stage_checkedAdd_eq_ok.mp hadd
    cases hadd
    exact .cons (stage_createUtxo hcreate) (ih h)

/-! ## Transfers and coinbases -/

variable {tx : Transaction} {hash : Hash}

theorem stage_rejectDuplicateInputs {inputs : List TransactionInput} {r : Unit × Batch Key.Val}
    (h : (rejectDuplicateInputs inputs).stage sledView s b = .ok r) : duplicateInput [] inputs = none ∧ b = r.2 := by
  unfold rejectDuplicateInputs at h
  split at h
  · cases h
  · next hnone =>
    cases h
    exact ⟨hnone, rfl⟩

theorem stage_applyNativeTransfer {o : TransferOutcome}
    (h : (applyNativeTransfer X tx hash height).stage sledView s b = .ok (o, b')) :
    tx.outputs ≠ [] ∧ duplicateInput [] tx.inputs = none ∧ o.fee = tx.fee ∧
      ∃ spent created b₁, (spendInputs X tx.inputs 0).stage sledView s b = .ok (spent, b₁) ∧
        (createTransferOutputs X hash height ((spent - tx.fee) / tx.outputs.length) ((spent - tx.fee) % tx.outputs.length)
          tx.outputs 0 0).stage sledView s b₁ = .ok (created, b') ∧ created + tx.fee = spent := by
  unfold applyNativeTransfer at h
  rcases Prog.stage_ite_eq_ok.mp h with ⟨-, h⟩ | ⟨hempty, h⟩
  · cases h
  obtain ⟨⟨⟩, b₁, hreject, h⟩ := Prog.stage_bind_eq_ok.mp h
  obtain ⟨hdistinct, rfl⟩ := stage_rejectDuplicateInputs hreject
  obtain ⟨spent, b₂, hspend, h⟩ := Prog.stage_bind_eq_ok.mp h
  rcases Prog.stage_ite_eq_ok.mp h with ⟨-, h⟩ | ⟨-, h⟩
  · cases h
  rcases Prog.stage_ite_eq_ok.mp h with ⟨-, h⟩ | ⟨-, h⟩
  · cases h
  obtain ⟨created, b₃, hcreate, h⟩ := Prog.stage_bind_eq_ok.mp h
  obtain ⟨sum, b₄, hadd, h⟩ := Prog.stage_bind_eq_ok.mp h
  obtain ⟨-, hadd⟩ := stage_checkedAdd_eq_ok.mp hadd
  cases hadd
  rcases Prog.stage_ite_eq_ok.mp h with ⟨-, h⟩ | ⟨hsum, h⟩
  · cases h
  cases h
  refine ⟨?_, hdistinct, rfl, spent, created, b₂, hspend, hcreate, not_not.mp hsum⟩
  rintro hnil
  simp [hnil] at hempty

theorem inputs_ne_nil_of_transfer {o : TransferOutcome}
    (h : (applyNativeTransfer X tx hash height).stage sledView s b = .ok (o, b')) : tx.inputs ≠ [] := by
  obtain ⟨houtputs, -, -, spent, created, b₁, hspend, hcreate, -⟩ := stage_applyNativeTransfer h
  intro hnil
  rw [hnil] at hspend
  cases hspend
  obtain ⟨output, outputs, hcons⟩ := List.exists_cons_of_ne_nil houtputs
  rw [hcons, createTransferOutputs] at hcreate
  simp at hcreate

theorem stage_applyCoinbase {o : CoinbaseOutcome} {reward fees : Nat} {sink : Address}
    (h : (applyCoinbase X tx hash height reward fees sink).stage sledView s b = .ok (o, b')) :
    OutputsCreated s hash 0 tx.outputs.length 0 (reward + fees) b b' := by
  unfold applyCoinbase at h
  rcases Prog.stage_ite_eq_ok.mp h with ⟨-, h⟩ | ⟨-, h⟩
  · cases h
  rcases Prog.stage_ite_eq_ok.mp h with ⟨-, h⟩ | ⟨-, h⟩
  · cases h
  obtain ⟨expected, b₁, hadd, h⟩ := Prog.stage_bind_eq_ok.mp h
  obtain ⟨-, hadd⟩ := stage_checkedAdd_eq_ok.mp hadd
  cases hadd
  rcases Prog.stage_ite_eq_ok.mp h with ⟨-, h⟩ | ⟨-, h⟩
  · cases h
  rcases Prog.stage_ite_eq_ok.mp h with ⟨-, h⟩ | ⟨-, h⟩
  · cases h
  obtain ⟨created, b₂, hcreate, h⟩ := Prog.stage_bind_eq_ok.mp h
  rcases Prog.stage_ite_eq_ok.mp h with ⟨-, h⟩ | ⟨hsum, h⟩
  · cases h
  cases h
  have houtputs := stage_createCoinbaseOutputs hcreate
  rwa [not_not.mp hsum] at houtputs

end SovereignNetwork.Execution
