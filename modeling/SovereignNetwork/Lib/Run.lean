import Mathlib.Data.List.Basic

/-!
# Runs of a deterministic step function

`run step s ls` plays the inputs `ls` from the state `s`. `Along step ok s ls` says that every input
of the run meets `ok` in the state it is played in.
-/

namespace SovereignNetwork.Lib

variable {S L : Type} {step : S → L → S} {ok ok' : S → L → Prop} {I : S → Prop}

/-- The state after playing the inputs one by one. -/
def run (step : S → L → S) (s : S) (ls : List L) : S := ls.foldl step s

/-- Every input of the run meets `ok` in the state before it. -/
def Along (step : S → L → S) (ok : S → L → Prop) : S → List L → Prop
  | _, [] => True
  | s, l :: ls => ok s l ∧ Along step ok (step s l) ls

instance [∀ s l, Decidable (ok s l)] : ∀ s ls, Decidable (Along step ok s ls)
  | _, [] => inferInstanceAs (Decidable True)
  | s, l :: ls =>
    have := instDecidableAlong (step s l) ls
    inferInstanceAs (Decidable (_ ∧ _))

@[simp] theorem run_nil (s : S) : run step s [] = s := rfl

@[simp] theorem run_cons (s : S) (l : L) (ls : List L) : run step s (l :: ls) = run step (step s l) ls := rfl

theorem run_append (s : S) (ls ms : List L) : run step s (ls ++ ms) = run step (run step s ls) ms := by
  simp [run, List.foldl_append]

theorem Along.append {s ls ms} :
    Along step ok s (ls ++ ms) ↔ Along step ok s ls ∧ Along step ok (run step s ls) ms := by
  induction ls generalizing s with
  | nil => simp [Along]
  | cons l ls ih => simp only [List.cons_append, Along, run_cons, ih, and_assoc]

theorem Along.of_forall (h : ∀ s l, ok s l) (s : S) (ls : List L) : Along step ok s ls := by
  induction ls generalizing s with
  | nil => trivial
  | cons l ls ih => exact ⟨h s l, ih _⟩

theorem Along.mono {s ls} (h : ∀ s l, ok s l → ok' s l) (hr : Along step ok s ls) : Along step ok' s ls := by
  induction ls generalizing s with
  | nil => trivial
  | cons l ls ih => exact ⟨h _ _ hr.1, ih hr.2⟩

theorem Along.and {s ls} (h : Along step ok s ls) (h' : Along step ok' s ls) :
    Along step (fun s l => ok s l ∧ ok' s l) s ls := by
  induction ls generalizing s with
  | nil => trivial
  | cons l ls ih => exact ⟨⟨h.1, h'.1⟩, ih h.2 h'.2⟩

/-- The invariant rule: what every admitted step keeps holds at the end of the run. -/
theorem Along.invariant {s ls} (hstep : ∀ s l, ok s l → I s → I (step s l)) (hr : Along step ok s ls)
    (hs : I s) : I (run step s ls) := by
  induction ls generalizing s with
  | nil => exact hs
  | cons l ls ih => exact ih hr.2 (hstep _ _ hr.1 hs)

theorem Along.with_invariant {s ls} (hstep : ∀ s l, ok s l → I s → I (step s l)) (hr : Along step ok s ls)
    (hs : I s) : Along step (fun s l => ok s l ∧ I s) s ls := by
  induction ls generalizing s with
  | nil => trivial
  | cons l ls ih => exact ⟨⟨hr.1, hs⟩, ih hr.2 (hstep _ _ hr.1 hs)⟩

theorem Along.of_mem {p : L → Prop} {ls} (s : S) (h : ∀ l ∈ ls, p l) : Along step (fun _ l => p l) s ls := by
  induction ls generalizing s with
  | nil => trivial
  | cons l ls ih => exact ⟨h l List.mem_cons_self, ih _ fun l hl => h l (List.mem_cons_of_mem _ hl)⟩

end SovereignNetwork.Lib
