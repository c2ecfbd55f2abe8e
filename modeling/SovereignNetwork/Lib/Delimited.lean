import Mathlib.Data.List.Basic

/-!
# Encodings that show where they end

A delimited encoding determines the value and what follows it. Concatenated fields are then read off from the left.
-/

namespace SovereignNetwork.Lib

variable {α β γ : Type} {encode : α → List β} {P : α → Prop}

/-- On the values that meet `P`, the encoding and what follows it can be told apart. -/
def Delimited (encode : α → List β) (P : α → Prop) : Prop :=
  ∀ a a' rest rest', P a → P a' → encode a ++ rest = encode a' ++ rest' → a = a' ∧ rest = rest'

namespace Delimited

theorem of_length (n : Nat) (hlength : ∀ a, (encode a).length = n)
    (hinj : ∀ a a', P a → P a' → encode a = encode a' → a = a') : Delimited encode P := by
  intro a a' rest rest' ha ha' h
  obtain ⟨hencode, hrest⟩ := List.append_inj h ((hlength a).trans (hlength a').symm)
  exact ⟨hinj a a' ha ha' hencode, hrest⟩

theorem comp (h : Delimited encode P) {f : γ → α} (hf : Function.Injective f) :
    Delimited (fun c => encode (f c)) fun c => P (f c) := by
  intro c c' rest rest' hc hc' heq
  obtain ⟨hvalue, hrest⟩ := h _ _ rest rest' hc hc' heq
  exact ⟨hf hvalue, hrest⟩

theorem lengthFirst {number : Nat → List β} {N : Nat} (h : Delimited number (· < N)) :
    Delimited (fun l => number l.length ++ l) fun l : List β => l.length < N := by
  intro l l' rest rest' hl hl' heq
  rw [List.append_assoc, List.append_assoc] at heq
  obtain ⟨hlength, heq⟩ := h _ _ _ _ hl hl' heq
  exact List.append_inj heq hlength

theorem terminated [DecidableEq β] (separator : β) (n : Nat) :
    Delimited (fun l => l ++ [separator]) fun l : List β => l.count separator = n := by
  intro l l' rest rest' hl hl' heq
  induction l generalizing l' n with
  | nil =>
    cases l' with
    | nil => exact ⟨rfl, List.append_cancel_left heq⟩
    | cons b l' =>
      obtain rfl := (List.cons.inj heq).1
      rw [List.count_cons_self, ← hl] at hl'
      cases hl'
  | cons a l ih =>
    cases l' with
    | nil =>
      obtain rfl := (List.cons.inj heq).1
      rw [List.count_cons_self, ← hl'] at hl
      cases hl
    | cons b l' =>
      obtain ⟨rfl, htail⟩ := List.cons.inj heq
      rw [List.count_cons, ← hl, List.count_cons, Nat.add_right_cancel_iff] at hl'
      obtain ⟨rfl, hrest⟩ := ih (l.count separator) l' rfl hl' htail
      exact ⟨rfl, hrest⟩

end Delimited

end SovereignNetwork.Lib
