import Mathlib.Data.List.Induction
import Mathlib.Tactic.Common

/-!
# Runs

A system that answers every step: what there is after steps, and the steps with their answers.  What
holds at first and is kept by one step, given what has been answered before, holds after any steps
(`Run.invariant`).  Whether a step of some kind has ever been answered in some way is decided by
what has been answered before and by the last answer (`Run.exists_mem_concat`).
-/

namespace CellIndex.Run

variable {State Step Answer : Type}

/-- What there is after steps. -/
def after (step : State → Step → Answer × State) (s : State) (steps : List Step) : State :=
  steps.foldl (fun s i => (step s i).2) s

/-- Steps with their answers. -/
def history (step : State → Step → Answer × State) (s : State) :
    List Step → List (Step × Answer)
  | [] => []
  | i :: steps => (i, (step s i).1) :: history step (step s i).2 steps

variable {step : State → Step → Answer × State}

lemma after_cons (s : State) (i : Step) (steps : List Step) :
    after step s (i :: steps) = after step (step s i).2 steps := rfl

lemma after_concat (s : State) (steps : List Step) (i : Step) :
    after step s (steps ++ [i]) = (step (after step s steps) i).2 := by
  rw [after, List.foldl_append]
  rfl

lemma history_concat (s : State) (steps : List Step) (i : Step) :
    history step s (steps ++ [i]) =
      history step s steps ++ [(i, (step (after step s steps) i).1)] := by
  induction steps generalizing s with
  | nil => rfl
  | cons first steps ih =>
    rw [List.cons_append, history, history, ih, List.cons_append]
    rfl

/-- What holds at first, and is kept by every step, holds after any steps. -/
theorem invariant {P : List (Step × Answer) → State → Prop} {s : State} (start : P [] s)
    (keep : ∀ history s i, P history s → P (history ++ [(i, (step s i).1)]) (step s i).2)
    (steps : List Step) : P (history step s steps) (after step s steps) := by
  induction steps using List.reverseRecOn with
  | nil => exact start
  | append_singleton steps i ih =>
    rw [history_concat, after_concat]
    exact keep _ _ i ih

/-! ## What has been answered -/

section Answered

variable {ι : Type} {f : ι → Step} {a : Answer} {history : List (Step × Answer)} {last : Step}
  {answer : Answer}

/-- One of the steps `f i` has been answered with `a` before, or is the last one and is answered so
now. -/
lemma exists_mem_concat : (∃ i, (f i, a) ∈ history ++ [(last, answer)]) ↔
    (∃ i, (f i, a) ∈ history) ∨ ∃ i, last = f i ∧ answer = a := by
  simp only [List.mem_append, List.mem_singleton, Prod.mk.injEq, exists_or]
  exact or_congr_right (exists_congr fun _ => and_congr eq_comm eq_comm)

/-- What has not been answered before is not answered by a step of another kind or with another
answer. -/
lemma not_exists_mem_concat (h : ¬ ∃ i, (f i, a) ∈ history)
    (hlast : ∀ i, last = f i → answer ≠ a) : ¬ ∃ i, (f i, a) ∈ history ++ [(last, answer)] := by
  rw [exists_mem_concat]
  rintro (hbefore | ⟨i, hstep, hanswer⟩)
  · exact h hbefore
  · exact hlast i hstep hanswer

end Answered

end CellIndex.Run
