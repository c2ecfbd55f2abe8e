import Mathlib.Algebra.Order.Ring.Nat
import Mathlib.Tactic.Ring

/-!
# Shares of two reserves

A number of shares stands for a part of each of two reserves.
-/

namespace SovereignNetwork.Lib

variable {shares shares' reserve reserve' x x' y y' : Nat}

/-- One share stands for no less of the reserve than before, written without division. -/
def Undiluted (shares reserve shares' reserve' : Nat) : Prop := reserve * shares' ≤ reserve' * shares

theorem Undiluted.of_deposit {deposit minted : Nat} (h : minted * reserve ≤ deposit * shares) :
    Undiluted shares reserve (shares + minted) (reserve + deposit) := by
  unfold Undiluted
  rw [Nat.mul_add, Nat.add_mul, Nat.mul_comm reserve minted]
  exact Nat.add_le_add_left h _

theorem Undiluted.of_withdrawal {burned paid : Nat} (h : paid * shares ≤ burned * reserve) :
    Undiluted shares reserve (shares - burned) (reserve - paid) := by
  unfold Undiluted
  rw [Nat.mul_sub, Nat.sub_mul, Nat.mul_comm reserve burned]
  exact Nat.sub_le_sub_left h _

theorem Undiluted.sq_le (hx : Undiluted shares x shares' x') (hy : Undiluted shares y shares' y')
    (hxy : 0 < x * y) (h : shares * shares ≤ x * y) : shares' * shares' ≤ x' * y' := by
  refine Nat.le_of_mul_le_mul_left ?_ hxy
  calc x * y * (shares' * shares') = x * shares' * (y * shares') := by ring
    _ ≤ x' * shares * (y' * shares) := Nat.mul_le_mul hx hy
    _ = shares * shares * (x' * y') := by ring
    _ ≤ x * y * (x' * y') := Nat.mul_le_mul_right _ h

theorem lt_of_sq_le {bound : Nat} (h : shares * shares ≤ x * y) (hx : x < bound) (hy : y < bound) : shares < bound := by
  by_contra hge
  have hge : bound ≤ shares := Nat.le_of_not_lt hge
  have hsq : bound * bound ≤ x * y := Nat.le_trans (Nat.mul_le_mul hge hge) h
  exact Nat.lt_irrefl _ (Nat.lt_of_le_of_lt hsq (Nat.mul_lt_mul'' hx hy))

end SovereignNetwork.Lib
