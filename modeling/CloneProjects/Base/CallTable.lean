import Mathlib.Data.List.Basic

/-!
# Tables of outstanding calls

A program that starts asynchronous calls keeps one entry for each of them, in the order they were started.
A new call is appended, a callback modifies the entry of its call, and nothing is ever removed, so the index
of an entry names the call for good. `All` is an invariant of every entry.
-/

namespace CloneProjects.CallTable

variable {α : Type*}

/-- Every entry, with its index, satisfies `P`. -/
def All (P : ℕ → α → Prop) (calls : List α) : Prop := ∀ i a, calls[i]? = some a → P i a

theorem all_nil {P : ℕ → α → Prop} : All P [] := by
  intro i a h
  simp at h

theorem All.mono {P Q : ℕ → α → Prop} {calls : List α} (h : All P calls) (hPQ : ∀ i a, P i a → Q i a) :
    All Q calls := fun i a ha => hPQ i a (h i a ha)

theorem getElem?_concat_eq_some {calls : List α} {a b : α} {i : ℕ} :
    (calls ++ [a])[i]? = some b ↔ calls[i]? = some b ∨ i = calls.length ∧ a = b := by
  rcases Nat.lt_trichotomy i calls.length with h | h | h
  · rw [List.getElem?_append_left h]
    exact ⟨.inl, fun h' => h'.resolve_right fun h'' => by omega⟩
  · subst h
    simp
  · rw [List.getElem?_append_right (by omega), List.getElem?_eq_none (l := calls) (by omega)]
    simp only [List.getElem?_singleton, reduceCtorEq, false_or]
    rw [if_neg (by omega)]
    constructor
    · simp
    · rintro ⟨h', _⟩
      omega

theorem getElem?_modify_eq_some {calls : List α} {f : α → α} {i j : ℕ} {b : α} :
    (calls.modify i f)[j]? = some b ↔
      (j ≠ i ∧ calls[j]? = some b) ∨ (j = i ∧ ∃ a, calls[i]? = some a ∧ f a = b) := by
  by_cases h : j = i
  · subst h
    simp [List.getElem?_modify_eq, Option.map_eq_some_iff]
  · rw [List.getElem?_modify_ne _ _ (Ne.symm h)]
    simp [h]

/-- An entry keeps its place. -/
theorem getElem?_concat_of {calls : List α} {a b : α} {j : ℕ} (h : calls[j]? = some a) :
    (calls ++ [b])[j]? = some a := getElem?_concat_eq_some.mpr (.inl h)

/-- What an entry becomes under a callback of `i`. -/
theorem exists_modify_of {P : α → Prop} {calls : List α} {f : α → α} {a : α} {i j : ℕ} (h : calls[j]? = some a)
    (hsame : j = i → P (f a)) (hother : j ≠ i → P a) : ∃ b, (calls.modify i f)[j]? = some b ∧ P b := by
  by_cases hj : j = i
  · subst hj
    exact ⟨f a, getElem?_modify_eq_some.mpr (.inr ⟨rfl, a, h, rfl⟩), hsame rfl⟩
  · exact ⟨a, getElem?_modify_eq_some.mpr (.inl ⟨hj, h⟩), hother hj⟩

/-- What is read off an entry by its index is read off the entry. -/
theorem of_bind_eq_some {β : Type*} {g : α → Option β} {calls : List α} {i : ℕ} {a : α} {b : β}
    (h : (calls[i]?).bind g = some b) (ha : calls[i]? = some a) : g a = some b := by
  rw [ha] at h
  exact h

/-- A modification is invisible to what does not look at the part it changes. -/
theorem filterMap_modify {β : Type*} {g : α → Option β} {f : α → α} (hf : ∀ a, g (f a) = g a) (calls : List α)
    (i : ℕ) : (calls.modify i f).filterMap g = calls.filterMap g := by
  induction calls generalizing i with
  | nil => simp
  | cons a calls ih =>
    cases i with
    | zero => simp [List.filterMap_cons, hf]
    | succ i => simp [List.filterMap_cons, ih]

/-- Starting a call keeps the invariant if the new entry satisfies it. -/
theorem All.concat {P : ℕ → α → Prop} {calls : List α} {a : α} (h : All P calls) (ha : P calls.length a) :
    All P (calls ++ [a]) := by
  intro i b hb
  rcases getElem?_concat_eq_some.mp hb with hb | ⟨rfl, rfl⟩
  · exact h i b hb
  · exact ha

/-- A callback keeps the invariant if the entry it changes satisfies it afterwards. -/
theorem All.modify {P : ℕ → α → Prop} {calls : List α} {f : α → α} {i : ℕ} (h : All P calls)
    (hf : ∀ a, calls[i]? = some a → P i a → P i (f a)) : All P (calls.modify i f) := by
  intro j b hb
  rcases getElem?_modify_eq_some.mp hb with ⟨_, hb⟩ | ⟨rfl, a, ha, rfl⟩
  · exact h j b hb
  · exact hf a ha (h j a ha)

/-- An update under an invariant that changes with the step (a function of a longer history, say). -/
theorem All.modify_of {P Q : ℕ → α → Prop} {calls : List α} {f : α → α} {i : ℕ} (h : All P calls)
    (hPQ : ∀ j a, j ≠ i → calls[j]? = some a → P j a → Q j a)
    (hf : ∀ a, calls[i]? = some a → P i a → Q i (f a)) : All Q (calls.modify i f) := by
  intro j b hb
  rcases getElem?_modify_eq_some.mp hb with ⟨hne, hb⟩ | ⟨rfl, a, ha, rfl⟩
  · exact hPQ j b hne hb (h j b hb)
  · exact hf a ha (h j a ha)

/-- An invariant of the entry alone, as a property of the members. -/
theorem all_iff_mem {P : α → Prop} {calls : List α} : All (fun _ a => P a) calls ↔ ∀ a ∈ calls, P a := by
  constructor
  · intro h a ha
    obtain ⟨i, hi⟩ := List.mem_iff_getElem?.mp ha
    exact h i a hi
  · exact fun h i a ha => h a (List.mem_of_getElem? ha)

theorem all_concat_iff {P : ℕ → α → Prop} {calls : List α} {a : α} :
    All P (calls ++ [a]) ↔ All P calls ∧ P calls.length a := by
  constructor
  · intro h
    exact ⟨fun i b hb => h i b (getElem?_concat_eq_some.mpr (.inl hb)),
      h _ a (getElem?_concat_eq_some.mpr (.inr ⟨rfl, rfl⟩))⟩
  · exact fun h => h.1.concat h.2

/-- A callback that adds the demand `Q` to one entry adds it to the invariant. -/
theorem all_modify_iff {P : ℕ → α → Prop} {Q : Prop} {calls : List α} {f : α → α} {i : ℕ} {a : α}
    (ha : calls[i]? = some a) (hf : P i (f a) ↔ P i a ∧ Q) : All P (calls.modify i f) ↔ All P calls ∧ Q := by
  constructor
  · intro h
    have hfa : P i a ∧ Q := hf.mp (h i (f a) (getElem?_modify_eq_some.mpr (.inr ⟨rfl, a, ha, rfl⟩)))
    refine ⟨fun j b hb => ?_, hfa.2⟩
    by_cases hj : j = i
    · subst hj
      rw [ha] at hb
      cases hb
      exact hfa.1
    · exact h j b (getElem?_modify_eq_some.mpr (.inl ⟨hj, hb⟩))
  · rintro ⟨h, hQ⟩
    refine h.modify fun b hb hPb => ?_
    rw [ha] at hb
    cases hb
    exact hf.mpr ⟨hPb, hQ⟩

/-- A callback that takes a good entry to a good one changes nothing. -/
theorem all_modify_iff_of {P : ℕ → α → Prop} {calls : List α} {f : α → α} {i : ℕ} {a : α}
    (ha : calls[i]? = some a) (hbefore : P i a) (hafter : P i (f a)) : All P (calls.modify i f) ↔ All P calls :=
  (all_modify_iff ha ⟨fun _ => ⟨hbefore, trivial⟩, fun _ => hafter⟩).trans (and_iff_left trivial)

/-! ### Keys of the entries -/

section keys
variable {κ : Type*} {key : α → Option κ} {calls : List α} {f : α → α} {i : ℕ}

/-- No two entries have the same key. -/
def Distinct (key : α → Option κ) (calls : List α) : Prop :=
  ∀ (i j : ℕ) (a b : α) (k : κ), calls[i]? = some a → calls[j]? = some b → key a = some k → key b = some k → i = j

theorem distinct_nil : Distinct key [] := by
  intro i j a b k ha
  simp at ha

theorem Distinct.concat {a : α} (h : Distinct key calls) (ha : key a = none) : Distinct key (calls ++ [a]) := by
  have hold : ∀ {j : ℕ} {b : α} {k : κ}, (calls ++ [a])[j]? = some b → key b = some k → calls[j]? = some b := by
    intro j b k hb hk
    rcases getElem?_concat_eq_some.mp hb with hb | ⟨_, rfl⟩
    · exact hb
    · rw [ha] at hk
      cases hk
  intro i j b c k hb hc hbk hck
  exact h i j b c k (hold hb hbk) (hold hc hck) hbk hck

/-- A callback that leaves the key alone. -/
theorem Distinct.modify (h : Distinct key calls) (hf : ∀ a, key (f a) = key a) :
    Distinct key (calls.modify i f) := by
  have hold : ∀ {j : ℕ} {b : α}, (calls.modify i f)[j]? = some b → ∃ a, calls[j]? = some a ∧ key b = key a := by
    intro j b hb
    rcases getElem?_modify_eq_some.mp hb with ⟨_, hb⟩ | ⟨rfl, a, ha, rfl⟩
    · exact ⟨b, hb, rfl⟩
    · exact ⟨a, ha, hf a⟩
  intro j l b c k hb hc hbk hck
  obtain ⟨b₀, hb₀, heqb⟩ := hold hb
  obtain ⟨c₀, hc₀, heqc⟩ := hold hc
  exact h j l b₀ c₀ k hb₀ hc₀ (heqb ▸ hbk) (heqc ▸ hck)

/-- A callback that gives its entry a new key. -/
theorem Distinct.modify_new {k : κ} (h : Distinct key calls) (hnew : ∀ a ∈ calls, key a ≠ some k)
    (hf : ∀ a, key (f a) = some k) : Distinct key (calls.modify i f) := by
  have hold : ∀ {j : ℕ} {b : α} {k' : κ}, (calls.modify i f)[j]? = some b → key b = some k' →
      (k' ≠ k ∧ calls[j]? = some b) ∨ (k' = k ∧ j = i) := by
    intro j b k' hb hk'
    rcases getElem?_modify_eq_some.mp hb with ⟨_, hb⟩ | ⟨rfl, a, _, rfl⟩
    · refine .inl ⟨?_, hb⟩
      rintro rfl
      exact hnew b (List.mem_of_getElem? hb) hk'
    · rw [hf, Option.some.injEq] at hk'
      exact .inr ⟨hk'.symm, rfl⟩
  intro j l b c k' hb hc hbk hck
  rcases hold hb hbk with ⟨hne, hb⟩ | ⟨heq, rfl⟩ <;> rcases hold hc hck with ⟨hne', hc⟩ | ⟨heq', rfl⟩
  · exact h j l b c k' hb hc hbk hck
  · exact absurd heq' hne
  · exact absurd heq hne'
  · rfl

end keys

end CloneProjects.CallTable
