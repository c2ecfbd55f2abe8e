import Mathlib.Data.List.Chain
import Mathlib.Data.List.Induction

/-!
# Chains linked by ids

Each element names the id of the one before it. Where an id determines that name, the last id of a chain determines the ids
of all its elements.
-/

namespace SovereignNetwork.Lib.HashChain

variable {α β : Type} (id prev : α → β)

def Linked (l : List α) : Prop := l.IsChain fun a b => prev b = id a

variable {id prev} {l l' : List α}

theorem Linked.prev_last {a : α} (h : Linked id prev (l ++ [a])) : ∀ b ∈ l.getLast?, id b = prev a := fun b hb =>
  ((List.isChain_append.mp h).2.2 b hb a rfl).symm

theorem suffix_or_suffix (hprev : ∀ a ∈ l, ∀ b ∈ l', id a = id b → prev a = prev b) (hl : Linked id prev l)
    (hl' : Linked id prev l') (hlast : l.getLast?.map id = l'.getLast?.map id) :
    l.map id <:+ l'.map id ∨ l'.map id <:+ l.map id := by
  induction l using List.reverseRecOn generalizing l' with
  | nil => exact .inl List.nil_suffix
  | append_singleton l a ih =>
    rcases l'.eq_nil_or_concat' with rfl | ⟨l', a', rfl⟩
    · exact .inr List.nil_suffix
    have hid : id a = id a' := by simpa using hlast
    have hsame : prev a = prev a' := hprev a (by simp) a' (by simp) hid
    simp only [List.map_append, List.map_singleton, hid, List.suffix_append_self_iff]
    cases hend : l.getLast? with
    | none =>
      rw [List.getLast?_eq_none_iff.mp hend]
      exact .inl List.nil_suffix
    | some b =>
      cases hend' : l'.getLast? with
      | none =>
        rw [List.getLast?_eq_none_iff.mp hend']
        exact .inr List.nil_suffix
      | some b' =>
        refine ih (fun a ha b hb => hprev a (by simp [ha]) b (by simp [hb])) (List.isChain_append.mp hl).1
          (List.isChain_append.mp hl').1 ?_
        rw [hend, hend', Option.map_some, Option.map_some, hl.prev_last b hend, hl'.prev_last b' hend', hsame]

end SovereignNetwork.Lib.HashChain
