import Mathlib.Data.List.Basic

/-!
# Tables of numbered rows

A table is a list whose rows have their position as their number. Rows are added at the end and replaced in place.
-/

namespace SovereignNetwork.Lib

variable {α : Type} {P : Nat → α → Prop} {rows : List α} {row : α}

theorem getElem?_concat {i : Nat} {a : α} (row : α) (h : rows[i]? = some a) : (rows ++ [row])[i]? = some a := by
  obtain ⟨hlt, -⟩ := List.getElem?_eq_some_iff.mp h
  rw [List.getElem?_append_left hlt]
  exact h

theorem forall_concat (h : ∀ i a, rows[i]? = some a → P i a) (hrow : P rows.length row) :
    ∀ i a, (rows ++ [row])[i]? = some a → P i a := by
  intro i a ha
  rcases Nat.lt_or_ge i rows.length with hlt | hge
  · rw [List.getElem?_append_left hlt] at ha
    exact h i a ha
  · obtain ⟨hlt, hget⟩ := List.getElem?_eq_some_iff.mp ha
    rw [List.length_append, List.length_singleton] at hlt
    obtain rfl : i = rows.length := by omega
    rw [List.getElem_concat_length rfl] at hget
    exact hget ▸ hrow

variable {i : Nat} {old : α}

theorem getElem?_set_of_some (hold : rows[i]? = some old) : (rows.set i row)[i]? = some row :=
  List.getElem?_set_self (List.getElem?_eq_some_iff.mp hold).1

theorem forall_set (h : ∀ j a, rows[j]? = some a → P j a) (hold : rows[i]? = some old) (hrow : P i row) :
    ∀ j a, (rows.set i row)[j]? = some a → P j a := by
  intro j a ha
  rcases eq_or_ne i j with rfl | hne
  · rw [getElem?_set_of_some hold] at ha
    exact Option.some.inj ha ▸ hrow
  · rw [List.getElem?_set_ne hne] at ha
    exact h j a ha

theorem set_cases {j : Nat} {a : α} (row : α) (hold : rows[i]? = some old) (h : rows[j]? = some a) :
    (j = i ∧ a = old) ∨ (rows.set i row)[j]? = some a := by
  rcases eq_or_ne i j with rfl | hne
  · exact .inl ⟨rfl, Option.some.inj (h.symm.trans hold)⟩
  · exact .inr (by rw [List.getElem?_set_ne hne]; exact h)

end SovereignNetwork.Lib
