import Mathlib.Data.List.Induction

/-!
# Runs

A system takes one input after another. It gives an output for each and keeps a
state in between.
-/

namespace DocAnnotations

variable {σ α β : Type}

/-- The outputs for a list of inputs, and the state that the inputs lead to. -/
def run (step : σ → α → β × σ) (s : σ) : List α → List β × σ
  | [] => ([], s)
  | x :: rest =>
    let (y, t) := step s x
    let (ys, u) := run step t rest
    (y :: ys, u)

theorem run_snoc_state (step : σ → α → β × σ) (s : σ) (xs : List α) (x : α) :
    (run step s (xs ++ [x])).2 = (step (run step s xs).2 x).2 := by
  induction xs generalizing s with
  | nil => rfl
  | cons y xs ih => exact ih (step s y).2

theorem run_snoc_outputs (step : σ → α → β × σ) (s : σ) (xs : List α) (x : α) :
    (run step s (xs ++ [x])).1 = (run step s xs).1 ++ [(step (run step s xs).2 x).1] := by
  induction xs generalizing s with
  | nil => rfl
  | cons y xs ih => exact congrArg ((step s y).1 :: ·) (ih (step s y).2)

theorem length_run_outputs (step : σ → α → β × σ) (s : σ) (xs : List α) :
    (run step s xs).1.length = xs.length := by
  induction xs generalizing s with
  | nil => rfl
  | cons y xs ih => exact congrArg (· + 1) (ih (step s y).2)

theorem run_output (step : σ → α → β × σ) (s : σ) (xs : List α) (i : Nat) :
    (run step s xs).1[i]? = xs[i]?.map fun x => (step (run step s (xs.take i)).2 x).1 := by
  induction xs generalizing s i with
  | nil => simp [run]
  | cons y xs ih =>
    cases i with
    | zero => rfl
    | succ i => exact ih (step s y).2 i

/-- What holds at the start and is kept by every step holds at the end. -/
theorem run_invariant (step : σ → α → β × σ) (P : σ → Prop) (s : σ) (xs : List α) (hs : P s)
    (hstep : ∀ t, ∀ x ∈ xs, P t → P (step t x).2) : P (run step s xs).2 := by
  induction xs using List.reverseRecOn with
  | nil => exact hs
  | append_singleton xs x ih =>
    rw [run_snoc_state]
    apply hstep _ x (by simp)
    exact ih fun t y hy => hstep t y (by simp [hy])

end DocAnnotations
