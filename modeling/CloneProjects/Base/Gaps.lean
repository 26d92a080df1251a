import Mathlib.Data.List.ReduceOption

/-!
# Lists with gaps

Two ways to read the values of a list of optional entries: all of them (`List.reduceOption`), or those before
the first missing one (`untilGap`). They agree exactly when no value stands behind a gap.
-/

namespace CloneProjects.Gaps

variable {α : Type*}

/-- The values before the first missing entry. -/
def untilGap : List (Option α) → List α
  | some a :: xs => a :: untilGap xs
  | _ => []

/-- No value stands behind a gap. -/
def Gapless (xs : List (Option α)) : Prop := xs.Pairwise fun x y => y.isSome → x.isSome

theorem untilGap_eq_reduceOption_iff {xs : List (Option α)} : untilGap xs = xs.reduceOption ↔ Gapless xs := by
  unfold Gapless
  induction xs with
  | nil => simp [untilGap]
  | cons x xs ih =>
    cases x with
    | some a =>
      rw [untilGap, List.reduceOption_cons_of_some, List.cons.injEq, List.pairwise_cons, ih]
      simp
    | none =>
      rw [untilGap, List.reduceOption_cons_of_none, List.pairwise_cons, eq_comm, List.reduceOption_eq_nil_iff]
      · constructor
        · rintro ⟨n, rfl⟩
          simp [List.pairwise_replicate]
        · rintro ⟨hnone, _⟩
          refine ⟨xs.length, List.eq_replicate_iff.mpr ⟨rfl, fun y hy => ?_⟩⟩
          cases y with
          | none => rfl
          | some b => simpa using hnone (some b) hy
      · simp

end CloneProjects.Gaps
