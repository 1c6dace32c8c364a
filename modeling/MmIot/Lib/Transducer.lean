import Mathlib.Tactic.Common

/-! Stream transducers: a step function that turns a state and an input item into
the next state and an output item. What a stream yields does not depend on how it
is cut, and a step that undoes another undoes it over any stream. -/

namespace Transducer

variable {σ β γ : Type*}

def run (step : σ → β → σ × γ) : σ → List β → σ × List γ
  | s, [] => (s, [])
  | s, b :: bs =>
    let (s', c) := step s b
    let (s'', cs) := run step s' bs
    (s'', c :: cs)

variable (step : σ → β → σ × γ)

@[simp] theorem run_cons (s : σ) (b : β) (bs : List β) :
    run step s (b :: bs) =
      ((run step (step s b).1 bs).1, (step s b).2 :: (run step (step s b).1 bs).2) := rfl

theorem run_append (s : σ) (xs ys : List β) :
    run step s (xs ++ ys) = ((run step (run step s xs).1 ys).1,
      (run step s xs).2 ++ (run step (run step s xs).1 ys).2) := by
  induction xs generalizing s with
  | nil => rfl
  | cons x xs ih => simp only [List.cons_append, run_cons, ih]

@[simp] theorem run_length (s : σ) (xs : List β) : (run step s xs).2.length = xs.length := by
  induction xs generalizing s with
  | nil => rfl
  | cons x xs ih => simp only [run_cons, List.length_cons, ih]

/-- If each output item determines the input item and the next state, so does
the output stream. -/
theorem run_inverse {inv : σ → γ → σ × β} (h : ∀ s b, inv s (step s b).2 = ((step s b).1, b))
    (s : σ) (xs : List β) : run inv s (run step s xs).2 = ((run step s xs).1, xs) := by
  induction xs generalizing s with
  | nil => rfl
  | cons x xs ih => simp only [run_cons, h, ih]

/-- A step whose state is its last output ends in the last item of the output. -/
theorem run_state_eq_getLastD (step : γ → β → γ × γ) (h : ∀ s b, (step s b).1 = (step s b).2)
    (s : γ) (xs : List β) : (run step s xs).1 = (run step s xs).2.getLastD s := by
  induction xs generalizing s with
  | nil => rfl
  | cons x xs ih => rw [run_cons, List.getLastD_cons, ih, h]

end Transducer
