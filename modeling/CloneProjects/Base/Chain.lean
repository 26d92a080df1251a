import Mathlib.Data.List.Basic

/-!
# Callback chains

An asynchronous operation made of `n` steps: each step's callback brings an outcome (`none` for success, the
error otherwise), the next step starts when the one before succeeded, and the first failure ends the chain.
`answers n outcomes` is what the operation owes its caller once the callbacks with these outcomes have fired:
nothing while it runs, then one answer.
-/

namespace CloneProjects.Chain

variable {ε : Type*}

/-- The error of the first step that failed. -/
def firstFailure (outcomes : List (Option ε)) : Option ε := outcomes.findSome? id

/-- The answers owed to the caller of a chain of `n` steps. -/
def answers (n : ℕ) (outcomes : List (Option ε)) : List (Option ε) :=
  match firstFailure outcomes with
  | some error => [some error]
  | none => if outcomes.length = n then [none] else []

/-- The first `k` steps succeeded and no other callback has fired. -/
def Running (k : ℕ) (outcomes : List (Option ε)) : Prop := outcomes = List.replicate k none

theorem firstFailure_replicate (k : ℕ) : firstFailure (List.replicate k (none : Option ε)) = none := by
  simp [firstFailure]

theorem Running.succ {k : ℕ} {outcomes : List (Option ε)} (h : Running k outcomes) :
    Running (k + 1) (outcomes ++ [none]) := by
  rw [Running, h, List.replicate_succ']

/-- A failing callback is answered with its error. -/
theorem answers_failed {k : ℕ} (n : ℕ) {outcomes : List (Option ε)} (h : Running k outcomes) (error : ε) :
    answers n (outcomes ++ [some error]) = [some error] := by
  have hfirst : firstFailure (outcomes ++ [some error]) = some error := by
    have hnone := firstFailure_replicate (ε := ε) k
    rw [← h, firstFailure] at hnone
    rw [firstFailure, List.findSome?_append, hnone]
    rfl
  rw [answers, hfirst]

/-- The last callback's success is answered with `none`. -/
theorem answers_succeeded {n : ℕ} {outcomes : List (Option ε)} (h : Running n outcomes) :
    answers n outcomes = [none] := by
  rw [h, answers, firstFailure_replicate]
  simp

/-- An answer of success says that all `n` callbacks fired and none failed. -/
theorem answers_eq_success {n : ℕ} {outcomes : List (Option ε)} :
    answers n outcomes = [none] ↔ outcomes.length = n ∧ ∀ o ∈ outcomes, o = none := by
  have hnone : firstFailure outcomes = none ↔ ∀ o ∈ outcomes, o = none := by
    simp [firstFailure]
  rw [← hnone, answers]
  cases hfirst : firstFailure outcomes with
  | some error => simp
  | none => simp

/-- An answer of failure names the first callback that failed. -/
theorem answers_eq_failure {n : ℕ} {outcomes : List (Option ε)} {error : ε} :
    answers n outcomes = [some error] ↔ firstFailure outcomes = some error := by
  rw [answers]
  cases hfirst : firstFailure outcomes with
  | some error' => simp
  | none =>
    simp only [reduceCtorEq, iff_false]
    split <;> simp

end CloneProjects.Chain
