import Mathlib.Data.List.Basic

/-!
# Counting in fixed periods

A limiter counts the events of the current period and starts a new one with the first event after its end.
-/

namespace SovereignNetwork.Lib

variable {period quota start : Nat} {times : List Nat}

/-- How many of the times lie in `[lo, hi)`. -/
def countIn (lo hi : Nat) (times : List Nat) : Nat := times.countP fun t => lo ≤ t ∧ t < hi

theorem countIn_cons (lo hi t : Nat) (times : List Nat) :
    countIn lo hi (t :: times) = countIn lo hi times + if lo ≤ t ∧ t < hi then 1 else 0 := by
  simp [countIn, List.countP_cons]

theorem countIn_mono {lo lo' hi hi' : Nat} (h : ∀ t ∈ times, lo ≤ t → t < hi → lo' ≤ t ∧ t < hi') :
    countIn lo hi times ≤ countIn lo' hi' times := by
  refine List.countP_mono_left fun t ht hin => ?_
  simp only [decide_eq_true_eq] at hin ⊢
  exact h t ht hin.1 hin.2

theorem countIn_eq_zero {lo hi : Nat} (h : ∀ t ∈ times, lo ≤ t → ¬ t < hi) : countIn lo hi times = 0 := by
  refine List.countP_eq_zero.mpr fun t ht hin => ?_
  simp only [decide_eq_true_eq] at hin
  exact h t ht hin.1 hin.2

theorem countIn_le_add (lo mid hi : Nat) (times : List Nat) :
    countIn lo hi times ≤ countIn lo mid times + countIn mid hi times := by
  induction times with
  | nil => simp [countIn]
  | cons t times ih =>
    rw [countIn_cons, countIn_cons, countIn_cons]
    split <;> split <;> split <;> omega

/-- The times that a limiter has let in, whose current period starts at `start`. -/
structure Windowed (period quota start : Nat) (times : List Nat) : Prop where
  before : ∀ t ∈ times, t < start + period
  current : countIn start (start + period) times ≤ quota
  /-- What a stretch that reaches into the current period has of the earlier ones. -/
  earlier : ∀ lo, start < lo + period → countIn lo start times ≤ quota
  stretch : ∀ lo, countIn lo (lo + period) times ≤ 2 * quota

namespace Windowed

theorem nil (period quota start : Nat) : Windowed period quota start [] :=
  ⟨by simp, by simp [countIn], by simp [countIn], by simp [countIn]⟩

theorem stretch_cons {start' t : Nat} (h : Windowed period quota start times) (ht : start' ≤ t)
    (hcurrent : countIn start' (start' + period) (t :: times) ≤ quota)
    (hbefore : ∀ t' ∈ t :: times, t' < start' + period)
    (hearlier : ∀ lo, start' < lo + period → countIn lo start' (t :: times) ≤ quota) (lo : Nat) :
    countIn lo (lo + period) (t :: times) ≤ 2 * quota := by
  by_cases hlo : start' < lo + period
  · have hsplit := countIn_le_add lo start' (lo + period) (t :: times)
    have hlate : countIn start' (lo + period) (t :: times) ≤ countIn start' (start' + period) (t :: times) :=
      countIn_mono fun t' ht' hin _ => ⟨hin, hbefore t' ht'⟩
    have := hearlier lo hlo
    omega
  · rw [countIn_cons, if_neg (by omega)]
    exact h.stretch lo

theorem same {t : Nat} (h : Windowed period quota start times) (ht : start ≤ t) (hend : t < start + period)
    (hroom : countIn start (start + period) times < quota) : Windowed period quota start (t :: times) := by
  have hbefore : ∀ t' ∈ t :: times, t' < start + period := by
    rintro t' (_ | ⟨_, ht'⟩)
    · exact hend
    · exact h.before t' ht'
  have hcurrent : countIn start (start + period) (t :: times) ≤ quota := by
    rw [countIn_cons, if_pos ⟨ht, hend⟩]
    exact hroom
  have hearlier : ∀ lo, start < lo + period → countIn lo start (t :: times) ≤ quota := by
    intro lo hlo
    rw [countIn_cons, if_neg (by omega)]
    exact h.earlier lo hlo
  exact ⟨hbefore, hcurrent, hearlier, h.stretch_cons ht hcurrent hbefore hearlier⟩

theorem countIn_after {t : Nat} (h : Windowed period quota start times) (ht : start + period ≤ t) (hi : Nat) :
    countIn t hi times = 0 :=
  countIn_eq_zero fun t' ht' hle _ => by
    have := h.before t' ht'
    omega

theorem next {t : Nat} (h : Windowed period quota start times) (hperiod : 0 < period) (ht : start + period ≤ t)
    (hquota : 0 < quota) : Windowed period quota t (t :: times) := by
  have hold : ∀ t' ∈ times, t' < t := fun t' ht' => Nat.lt_of_lt_of_le (h.before t' ht') ht
  have hbefore : ∀ t' ∈ t :: times, t' < t + period := by
    rintro t' (_ | ⟨_, ht'⟩)
    · omega
    · exact Nat.lt_of_lt_of_le (hold t' ht') (Nat.le_add_right _ _)
  have hcurrent : countIn t (t + period) (t :: times) ≤ quota := by
    rw [countIn_cons, if_pos (by omega), h.countIn_after ht]
    omega
  have hearlier : ∀ lo, t < lo + period → countIn lo t (t :: times) ≤ quota := by
    intro lo hlo
    rw [countIn_cons, if_neg (by omega)]
    have hlast : countIn lo t times ≤ countIn start (start + period) times :=
      countIn_mono fun t' ht' hin _ => ⟨by omega, h.before t' ht'⟩
    have := h.current
    omega
  exact ⟨hbefore, hcurrent, hearlier, h.stretch_cons (Nat.le_refl t) hcurrent hbefore hearlier⟩

end Windowed

end SovereignNetwork.Lib
