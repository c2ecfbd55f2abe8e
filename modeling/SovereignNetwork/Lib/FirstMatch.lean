import Mathlib.Data.List.Basic

/-!
# The first match of a search

Two searches of one list find the same element once each result satisfies the other's condition.
-/

namespace SovereignNetwork.Lib

theorem find?_unique {α : Type} {p q : α → Bool} {l : List α} {a b : α} (hp : l.find? p = some a)
    (hq : l.find? q = some b) (hpb : p b) (hqa : q a) : a = b := by
  induction l with
  | nil => cases hp
  | cons c l ih =>
    cases hpc : p c with
    | true =>
      obtain rfl : c = a := Option.some.inj ((List.find?_cons_of_pos hpc).symm.trans hp)
      exact Option.some.inj ((List.find?_cons_of_pos hqa).symm.trans hq)
    | false =>
      cases hqc : q c with
      | true =>
        obtain rfl : c = b := Option.some.inj ((List.find?_cons_of_pos hqc).symm.trans hq)
        rw [hpb] at hpc
        cases hpc
      | false =>
        rw [List.find?_cons_of_neg (by simp [hpc])] at hp
        rw [List.find?_cons_of_neg (by simp [hqc])] at hq
        exact ih hp hq

end SovereignNetwork.Lib
