import CloneProjects.Base.CallTable

/-!
# Flags that say whether a call runs

One shared boolean for a table of calls: it is truthful when it is up exactly while some entry still runs. Each
way a step can touch the flag or the table has its rule.
-/

namespace CloneProjects.BusyFlag

variable {α : Type*}

/-- The flag is up exactly while some call runs. -/
def Truthful (Runs : α → Prop) (flag : Option Bool) (calls : List α) : Prop :=
  flag = some true ↔ ∃ a ∈ calls, Runs a

/-- Some call other than `i` runs. -/
def OtherRuns (Runs : α → Prop) (calls : List α) (i : ℕ) : Prop :=
  ∃ j a, j ≠ i ∧ calls[j]? = some a ∧ Runs a

section
variable {Runs : α → Prop} {flag : Option Bool} {calls : List α} {i : ℕ} {a : α} {f : α → α}

theorem truthful_nil (h : flag ≠ some true) : Truthful Runs flag [] := by
  simp [Truthful, h]

theorem exists_modify_iff (ha : calls[i]? = some a) :
    (∃ b ∈ calls.modify i f, Runs b) ↔ OtherRuns Runs calls i ∨ Runs (f a) := by
  constructor
  · rintro ⟨b, hmem, hruns⟩
    obtain ⟨j, hb⟩ := List.mem_iff_getElem?.mp hmem
    rcases CallTable.getElem?_modify_eq_some.mp hb with ⟨hj, hb⟩ | ⟨_, a', ha', rfl⟩
    · exact .inl ⟨j, b, hj, hb, hruns⟩
    · rw [ha] at ha'
      cases ha'
      exact .inr hruns
  · rintro (⟨j, b, hj, hb, hruns⟩ | hruns)
    · exact ⟨b, List.mem_of_getElem? (CallTable.getElem?_modify_eq_some.mpr (.inl ⟨hj, hb⟩)), hruns⟩
    · exact ⟨f a, List.mem_of_getElem? (CallTable.getElem?_modify_eq_some.mpr (.inr ⟨rfl, a, ha, rfl⟩)), hruns⟩

/-- The flag goes up with a call that starts. -/
theorem truthful_started (ha : Runs a) : Truthful Runs (some true) (calls ++ [a]) := by
  refine iff_of_true rfl ⟨a, ?_, ha⟩
  simp

/-- A call that runs on changes nothing. -/
theorem truthful_continued (ha : calls[i]? = some a) (hbefore : Runs a) (hafter : Runs (f a))
    (h : Truthful Runs flag calls) : Truthful Runs flag (calls.modify i f) := by
  have hup : flag = some true := h.mpr ⟨a, List.mem_of_getElem? ha, hbefore⟩
  exact iff_of_true hup ((exists_modify_iff ha).mpr (.inr hafter))

/-- A call that ends without touching the flag leaves it up, which is right only if another call runs. -/
theorem truthful_ended (ha : calls[i]? = some a) (hbefore : Runs a) (hafter : ¬ Runs (f a))
    (h : Truthful Runs flag calls) : Truthful Runs flag (calls.modify i f) ↔ OtherRuns Runs calls i := by
  have hup : flag = some true := h.mpr ⟨a, List.mem_of_getElem? ha, hbefore⟩
  rw [Truthful, exists_modify_iff ha, or_iff_left hafter]
  exact ⟨fun h => h.mp hup, fun h => iff_of_true hup h⟩

/-- A flag cleared while its call runs on lies. -/
theorem not_truthful_cleared (ha : calls[i]? = some a) (hafter : Runs (f a)) :
    ¬ Truthful Runs (some false) (calls.modify i f) := by
  intro h
  have hup := h.mpr ((exists_modify_iff ha).mpr (.inr hafter))
  cases hup

end

end CloneProjects.BusyFlag
