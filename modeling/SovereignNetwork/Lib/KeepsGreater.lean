import Mathlib.Order.Lattice
import Mathlib.Order.MinMax

/-!
# Keeping the greater of two

An operation that returns whichever argument has the greater key is idempotent, commutative and associative on a set where
the key determines the element.
-/

namespace SovereignNetwork.Lib

variable {S K : Type} [LinearOrder K] {key : S → K} {op : S → S → S} {P : S → Prop} {a b c : S}

structure KeepsGreater (key : S → K) (op : S → S → S) (P : S → Prop) : Prop where
  op_eq : ∀ a b, P a → P b → op a b = if key a < key b then b else a
  key_inj : ∀ a b, P a → P b → key a = key b → a = b

namespace KeepsGreater

theorem closed (h : KeepsGreater key op P) (ha : P a) (hb : P b) : P (op a b) := by
  rw [h.op_eq a b ha hb]
  split
  · exact hb
  · exact ha

theorem key_op (h : KeepsGreater key op P) (ha : P a) (hb : P b) : key (op a b) = max (key a) (key b) := by
  rw [h.op_eq a b ha hb]
  split
  · next hlt => exact (max_eq_right hlt.le).symm
  · next hle => exact (max_eq_left (not_lt.mp hle)).symm

theorem idem (h : KeepsGreater key op P) (ha : P a) : op a a = a := by
  rw [h.op_eq a a ha ha, if_neg (lt_irrefl _)]

theorem comm (h : KeepsGreater key op P) (ha : P a) (hb : P b) : op a b = op b a := by
  apply h.key_inj _ _ (h.closed ha hb) (h.closed hb ha)
  rw [h.key_op ha hb, h.key_op hb ha, max_comm]

theorem assoc (h : KeepsGreater key op P) (ha : P a) (hb : P b) (hc : P c) : op (op a b) c = op a (op b c) := by
  apply h.key_inj _ _ (h.closed (h.closed ha hb) hc) (h.closed ha (h.closed hb hc))
  rw [h.key_op (h.closed ha hb) hc, h.key_op ha hb, h.key_op ha (h.closed hb hc), h.key_op hb hc, max_assoc]

end KeepsGreater

end SovereignNetwork.Lib
