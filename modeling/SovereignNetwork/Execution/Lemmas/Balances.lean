import SovereignNetwork.Execution.Lemmas.Staged

/-!
# Debits, credits and transfers

A debit or a credit writes one balance, computed from the committed one.
-/

namespace SovereignNetwork.Execution

open Lib Mutator

def balanceWeight (t : TokenId) : (k : Key) → k.Val → Nat
  | .tokenBalance t' _, (v : Nat) => if t' = t then v else 0
  | _, _ => 0

def tokenTotal (m : AList Key.Val) (t : TokenId) : Nat := total (balanceWeight t) m

theorem weight_balance (σ : ChainState) (t : TokenId) (a : Address) :
    weight (balanceWeight t) (.tokenBalance t a) (σ (.tokenBalance t a)) = σ.balance t a := by
  unfold ChainState.balance
  cases hv : σ (.tokenBalance t a) with
  | none => rfl
  | some v => exact if_pos rfl

theorem weight_stored (t : TokenId) (a : Address) (v : Nat) :
    weight (balanceWeight t) (.tokenBalance t a) (stored v) = v := by
  by_cases hv : v = 0
  · simp only [stored, hv, if_true]
    rfl
  · simp only [stored, hv, if_false]
    exact if_pos rfl

theorem balanceWeight_eq_zero {t : TokenId} {k : Key} (hk : ∀ a, k ≠ .tokenBalance t a) (v : k.Val) :
    balanceWeight t k v = 0 := by
  cases k with
  | tokenBalance t' a =>
    refine if_neg ?_
    rintro rfl
    exact hk a rfl
  | _ => rfl

variable {s : AList Key.Val} {b b' : Batch Key.Val} {t : TokenId} {a a' : Address} {n : Nat}

/-- The batch after a balance was moved by `n`, to `v`. Nothing is written for zero. -/
def writeBalance (b : Batch Key.Val) (t : TokenId) (a : Address) (n v : Nat) : Batch Key.Val :=
  if n = 0 then b else b.insert (.tokenBalance t a) (stored v)

theorem lookup_writeBalance {k : Key} (hk : k ≠ .tokenBalance t a) (n v : Nat) :
    (writeBalance b t a n v).lookup k = b.lookup k := by
  unfold writeBalance
  split
  · rfl
  · exact AList.lookup_insert_ne hk

theorem total_writeBalance (hb : n ≠ 0 → Key.tokenBalance t a ∉ b) {v : Nat}
    (hv : n = 0 → v = (committed s).balance t a) :
    totalAfter (balanceWeight t) s (writeBalance b t a n v) + (committed s).balance t a =
      totalAfter (balanceWeight t) s b + v := by
  unfold writeBalance
  split
  · next hn => rw [hv hn]
  · next hn =>
    have h := totalAfter_insert (w := balanceWeight t) s b (.tokenBalance t a) (stored v)
    have hold : latest s b (.tokenBalance t a) = committed s (.tokenBalance t a) := staged_of_notMem (hb hn)
    rwa [weight_stored, hold, weight_balance] at h

theorem total_writeBalance_add (n v : Nat) :
    totalAfter (balanceWeight t) s (writeBalance b t a n v) + (staged s b).balance t a =
      totalAfter (balanceWeight t) s b + if n = 0 then (staged s b).balance t a else v := by
  unfold writeBalance
  split
  · rfl
  · have h := totalAfter_insert (w := balanceWeight t) s b (.tokenBalance t a) (stored v)
    rwa [weight_stored, ← staged, weight_balance] at h

theorem balance_writeBalance (a' : Address) (n v : Nat) :
    (staged s (writeBalance b t a n v)).balance t a' = if n ≠ 0 ∧ a' = a then v else (staged s b).balance t a' := by
  unfold writeBalance
  by_cases hn : n = 0
  · simp [hn]
  by_cases ha : a' = a
  · rw [if_neg hn, if_pos ⟨hn, ha⟩, ha, ChainState.balance, staged_insert_self, stored_getD]
  · rw [if_neg hn, if_neg fun h => ha h.2, ChainState.balance, ChainState.balance, staged, staged,
      latest_insert_of_ne fun h => ha (Key.tokenBalance.inj h).2]

theorem notMem_writeBalance {k : Key} (hk : n ≠ 0 → k ≠ .tokenBalance t a) (hb : k ∉ b) (v : Nat) :
    k ∉ writeBalance b t a n v := by
  unfold writeBalance
  split
  · exact hb
  · next hn => simp [AList.mem_insert, hk hn, hb]

/-! ## Debits and credits -/

@[simp] theorem stage_debitToken_eq_ok {r : Unit × Batch Key.Val} :
    (debitToken t a n).stage sledView s b = .ok r ↔
      n ≤ (committed s).balance t a ∧ writeBalance b t a n ((committed s).balance t a - n) = r.2 := by
  by_cases hn : n = 0 <;> simp [debitToken, writeBalance, hn, Prod.ext_iff]

@[simp] theorem stage_creditToken_eq_ok {r : Unit × Batch Key.Val} :
    (creditToken t a n).stage sledView s b = .ok r ↔
      (n = 0 ∨ (committed s).balance t a + n ≤ u128Max) ∧
        writeBalance b t a n ((committed s).balance t a + n) = r.2 := by
  unfold creditToken checkedAddU128
  by_cases hn : n = 0 <;> by_cases h : (committed s).balance t a + n ≤ u128Max <;>
    simp [writeBalance, h, hn, Prod.ext_iff]

theorem total_debit (hb : n ≠ 0 → Key.tokenBalance t a ∉ b) (hn : n ≤ (committed s).balance t a) :
    totalAfter (balanceWeight t) s (writeBalance b t a n ((committed s).balance t a - n)) + n =
      totalAfter (balanceWeight t) s b := by
  have h := total_writeBalance (s := s) (n := n) hb (v := (committed s).balance t a - n) (by omega)
  omega

theorem total_credit (hb : n ≠ 0 → Key.tokenBalance t a ∉ b) :
    totalAfter (balanceWeight t) s (writeBalance b t a n ((committed s).balance t a + n)) =
      totalAfter (balanceWeight t) s b + n := by
  have h := total_writeBalance (s := s) (n := n) hb (v := (committed s).balance t a + n) (by omega)
  omega

@[simp] theorem ensures_debitToken {W : (k : Key) → Option k.Val → Prop} {Q : Unit → Prop} :
    (debitToken t a n).Ensures sledView s W Q ↔
      (n ≠ 0 → n ≤ (committed s).balance t a → W (.tokenBalance t a) (stored ((committed s).balance t a - n))) ∧
        (n ≤ (committed s).balance t a → Q ()) := by
  by_cases hn : n = 0 <;> simp [debitToken, hn, imp_and]

@[simp] theorem ensures_creditToken {W : (k : Key) → Option k.Val → Prop} {Q : Unit → Prop} :
    (creditToken t a n).Ensures sledView s W Q ↔
      (n ≠ 0 → (committed s).balance t a + n ≤ u128Max →
        W (.tokenBalance t a) (stored ((committed s).balance t a + n))) ∧
      (n = 0 ∨ (committed s).balance t a + n ≤ u128Max → Q ()) := by
  unfold creditToken checkedAddU128
  by_cases hn : n = 0 <;> by_cases h : (committed s).balance t a + n ≤ u128Max <;> simp [h, hn]

theorem total_insert_of_ne {k : Key} (hk : ∀ a, k ≠ .tokenBalance t a) (v : Option k.Val) :
    totalAfter (balanceWeight t) s (b.insert k v) = totalAfter (balanceWeight t) s b := by
  refine totalAfter_frame fun k' => ?_
  by_cases heq : k' = k
  · subst heq
    exact .inl (balanceWeight_eq_zero hk)
  · exact .inr (AList.lookup_insert_ne heq)

theorem total_writeBalance_of_ne {t' : TokenId} (ht : t' ≠ t) (v : Nat) :
    totalAfter (balanceWeight t') s (writeBalance b t a n v) = totalAfter (balanceWeight t') s b := by
  unfold writeBalance
  split
  · rfl
  · exact total_insert_of_ne (fun _ h => ht (Key.tokenBalance.inj h).1.symm) _

/-! ## Transfers -/

/-- The batch once the recorded supply has lost what was burned. -/
def writeBurn (s : AList Key.Val) (b : Batch Key.Val) (t : TokenId) (burn : Nat) : Batch Key.Val :=
  match (committed s).supply t with
  | some supply => if burn = 0 then b else b.insert (.tokenSupply t) (some (supply - burn))
  | none => b

theorem stage_transferToken_eq_ok {fromAddr toAddr : Address} {r : Unit × Batch Key.Val} :
    (transferToken t fromAddr toAddr n).stage sledView s b = .ok r ↔
      let burn := burnOf ((committed s).contract t) n
      ∃ b₁ b₂, (debitToken t fromAddr n).stage sledView s b = .ok ((), b₁) ∧
        (creditToken t toAddr (n - burn)).stage sledView s b₁ = .ok ((), b₂) ∧ writeBurn s b₂ t burn = r.2 := by
  unfold writeBurn
  cases hsupply : (committed s).supply t with
  | none =>
    by_cases hburn : burnOf ((committed s).contract t) n = 0 <;>
      simp [transferToken, hburn, hsupply, Nat.pos_iff_ne_zero, Prod.ext_iff]
  | some supply =>
    by_cases hburn : burnOf ((committed s).contract t) n = 0 <;>
      simp [transferToken, hburn, hsupply, Nat.pos_iff_ne_zero, Prod.ext_iff]

theorem total_writeBurn (burn : Nat) :
    totalAfter (balanceWeight t) s (writeBurn s b t burn) = totalAfter (balanceWeight t) s b := by
  unfold writeBurn
  split
  · split
    · rfl
    · exact total_insert_of_ne (by simp) _
  · rfl

theorem supply_transfer (h : (transferToken t a a' n).stage sledView s b = .ok ((), b')) (hb : Key.tokenSupply t ∉ b) :
    (staged s b').supply t = ((committed s).supply t).map (· - burnOf ((committed s).contract t) n) := by
  obtain ⟨b₁, b₂, hdebit, hcredit, rfl⟩ := stage_transferToken_eq_ok.mp h
  obtain ⟨-, rfl⟩ := stage_debitToken_eq_ok.mp hdebit
  obtain ⟨-, rfl⟩ := stage_creditToken_eq_ok.mp hcredit
  have hrest : ∀ {n m v w : Nat}, Key.tokenSupply t ∉ writeBalance (writeBalance b t a n v) t a' m w := fun {_ _ _ _} =>
    notMem_writeBalance (by simp) (notMem_writeBalance (by simp) hb _) _
  unfold writeBurn
  cases hsupply : (committed s).supply t with
  | none => exact (staged_of_notMem hrest).trans hsupply
  | some supply =>
    simp only [Option.map_some]
    split
    · next hburn =>
      rw [hburn, Nat.sub_zero]
      exact (staged_of_notMem hrest).trans hsupply
    · exact staged_insert_self _ _ _ _

@[simp] theorem ensures_transferToken {W : (k : Key) → Option k.Val → Prop} {Q : Unit → Prop} :
    (transferToken t a a' n).Ensures sledView s W Q ↔
      let burn := burnOf ((committed s).contract t) n
      (debitToken t a n).Ensures sledView s W fun _ => (creditToken t a' (n - burn)).Ensures sledView s W fun _ =>
        (∀ supply, (committed s).supply t = some supply → burn ≠ 0 → W (.tokenSupply t) (some (supply - burn))) ∧ Q () := by
  by_cases hburn : burnOf ((committed s).contract t) n = 0 <;> cases hsupply : (committed s).supply t <;>
    simp [transferToken, hburn, hsupply, Nat.pos_iff_ne_zero]

end SovereignNetwork.Execution
