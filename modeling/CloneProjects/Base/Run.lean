import Mathlib.Data.List.Induction

/-!
# Runs of event-driven systems

A system is a partial step function: `step s e` is the state after the event `e`, or nothing if `e` cannot
happen in `s`. A run is a list of events, and what holds along a run is proved by one rule each: for every
state (`run_induction`), and for the runs all of whose steps meet a condition (`guarded_induction`). Both
rules carry the history, so a state may be compared with any function of the events that led to it.
-/

namespace CloneProjects.EventRun

variable {σ ε α : Type*}

/-- The state the events lead to from `s`, if each of them can happen in its turn. -/
def run (step : σ → ε → Option σ) (s : σ) (es : List ε) : Option σ := es.foldlM step s

section rules
variable {step : σ → ε → Option σ} {s₀ s s' : σ} {es fs : List ε} {e : ε}

@[simp] theorem run_nil : run step s [] = some s := rfl

@[simp] theorem run_cons : run step s (e :: es) = (step s e).bind (run step · es) := rfl

theorem run_append : run step s (es ++ fs) = (run step s es).bind (run step · fs) := by
  simp only [run, List.foldlM_append]
  rfl

theorem run_append_eq_some : run step s (es ++ fs) = some s' ↔
    ∃ m, run step s es = some m ∧ run step m fs = some s' := by
  rw [run_append, Option.bind_eq_some_iff]

theorem run_concat_eq_some : run step s (es ++ [e]) = some s' ↔
    ∃ m, run step s es = some m ∧ step m e = some s' := by
  simp [run_append_eq_some]

/-- The step a run takes at one of its events. -/
theorem exists_step {pre post : List ε} (hrun : run step s₀ (pre ++ e :: post) = some s) :
    ∃ m m', run step s₀ pre = some m ∧ step m e = some m' ∧ run step m' post = some s := by
  obtain ⟨m, hpre, hpost⟩ := run_append_eq_some.mp hrun
  rw [run_cons, Option.bind_eq_some_iff] at hpost
  obtain ⟨m', hstep, hpost⟩ := hpost
  exact ⟨m, m', hpre, hstep, hpost⟩

theorem step_of_run {pre post : List ε} {m : σ} (hpre : run step s₀ pre = some m)
    (hrun : run step s₀ (pre ++ e :: post) = some s) : ∃ m', step m e = some m' ∧ run step m' post = some s := by
  obtain ⟨m₀, m', hm₀, hstep, hpost⟩ := exists_step hrun
  rw [hpre, Option.some.injEq] at hm₀
  subst hm₀
  exact ⟨m', hstep, hpost⟩

/-- What holds at the start and is kept by every step holds after every run. -/
theorem run_induction {P : List ε → σ → Prop} (start : P [] s₀)
    (concat : ∀ es s e s', run step s₀ es = some s → P es s → step s e = some s' → P (es ++ [e]) s') :
    run step s₀ es = some s → P es s := by
  induction es using List.reverseRecOn generalizing s with
  | nil =>
    intro hrun
    cases hrun
    exact start
  | append_singleton es e ih =>
    intro hrun
    obtain ⟨m, hes, hstep⟩ := run_concat_eq_some.mp hrun
    exact concat es m e s hes (ih hes) hstep

/-- What holds at some point and is kept by every later event holds at the end. -/
theorem run_suffix {P : List ε → σ → Prop} {pre post : List ε} {m : σ} (hpre : run step s₀ pre = some m)
    (hm : P [] m) (keep : ∀ es s e s', run step s₀ (pre ++ es) = some s → e ∈ post → P es s →
      step s e = some s' → P (es ++ [e]) s')
    (hrun : run step s₀ (pre ++ post) = some s) : P post s := by
  induction post using List.reverseRecOn generalizing s with
  | nil =>
    rw [List.append_nil, hpre] at hrun
    cases hrun
    exact hm
  | append_singleton post e ih =>
    rw [← List.append_assoc] at hrun
    obtain ⟨n, hn, hstep⟩ := run_concat_eq_some.mp hrun
    exact keep post n e s hn (by simp) (ih (fun es s x s' hes hx => keep es s x s' hes (by simp [hx])) hn) hstep

/-- What an event brings about and every later event keeps holds at the end. -/
theorem run_since {P : List ε → σ → Prop} {pre post : List ε} {m : σ} (hpre : run step s₀ pre = some m)
    (start : ∀ m', step m e = some m' → P [] m')
    (keep : ∀ es s x s', run step s₀ (pre ++ e :: es) = some s → x ∈ post → P es s → step s x = some s' →
      P (es ++ [x]) s')
    (hrun : run step s₀ (pre ++ e :: post) = some s) : P post s := by
  obtain ⟨m', hstep, _⟩ := step_of_run hpre hrun
  rw [List.append_cons] at hrun
  refine run_suffix (run_concat_eq_some.mpr ⟨m, hpre, hstep⟩) (start m' hstep) (fun es s x s' hes => ?_) hrun
  exact keep es s x s' (by rwa [List.append_cons])

/-- A run of a composed system is a run of one component, whose events `f` picks out, if every step of the system
is a step of the component or leaves it alone. -/
theorem run_projection {τ δ : Type*} {cstep : τ → δ → Option τ} {g : σ → τ} {f : ε → Option δ}
    (hstep : ∀ s e s', step s e = some s' → match f e with
      | some d => cstep (g s) d = some (g s')
      | none => g s' = g s) :
    run step s₀ es = some s → run cstep (g s₀) (es.filterMap f) = some (g s) := by
  refine run_induction (P := fun es s => run cstep (g s₀) (es.filterMap f) = some (g s)) rfl
    fun es s e s' _ hs h => ?_
  have hproject := hstep s e s' h
  rw [List.filterMap_append]
  cases hf : f e with
  | none =>
    rw [hf] at hproject
    simpa [hf, hproject] using hs
  | some d =>
    rw [hf] at hproject
    simpa [hf] using run_concat_eq_some.mpr ⟨g s, hs, hproject⟩

/-- An invariant that does not look at the history. -/
theorem run_invariant {P : σ → Prop} (hstep : ∀ s e s', P s → step s e = some s' → P s') (start : P s) :
    run step s es = some s' → P s' :=
  run_induction (P := fun _ s => P s) start fun _ s e s' _ hs h => hstep s e s' hs h

end rules

/-! ### Conditions on the steps of a run -/

/-- Every step of the run meets `C`, a condition on the events before it, the state before it and itself. -/
def Guarded (step : σ → ε → Option σ) (C : List ε → σ → ε → Prop) (s₀ : σ) (es : List ε) : Prop :=
  ∀ pre e post s, es = pre ++ e :: post → run step s₀ pre = some s → C pre s e

theorem concat_eq_append_cons {es pre post : List ε} {e x : ε} :
    es ++ [e] = pre ++ x :: post ↔
      (post = [] ∧ es = pre ∧ e = x) ∨ ∃ rest, post = rest ++ [e] ∧ es = pre ++ x :: rest := by
  induction post using List.reverseRecOn with
  | nil =>
    constructor
    · intro h
      obtain ⟨hes, hx⟩ := List.append_inj' h rfl
      exact .inl ⟨rfl, hes, List.singleton_inj.mp hx⟩
    · rintro (⟨_, rfl, rfl⟩ | ⟨rest, h, _⟩)
      · rfl
      · simp at h
  | append_singleton rest y _ =>
    rw [show pre ++ x :: (rest ++ [y]) = (pre ++ x :: rest) ++ [y] by simp]
    constructor
    · intro h
      obtain ⟨hes, hy⟩ := List.append_inj' h rfl
      rw [List.singleton_inj] at hy
      exact .inr ⟨rest, by rw [hy], hes⟩
    · rintro (⟨h, _⟩ | ⟨rest', h, hes⟩)
      · simp at h
      · obtain ⟨hrest, hy⟩ := List.append_inj' h rfl
        rw [List.singleton_inj] at hy
        rw [hes, hrest, hy]

/-- A condition on the events alone. -/
theorem guarded_of_forall {step : σ → ε → Option σ} {C : List ε → σ → ε → Prop} {s₀ : σ} {es : List ε}
    (h : ∀ e ∈ es, ∀ pre s, C pre s e) : Guarded step C s₀ es := by
  rintro pre e post s rfl _
  exact h e (by simp) pre s

@[simp] theorem guarded_nil {step : σ → ε → Option σ} {C : List ε → σ → ε → Prop} {s₀ : σ} :
    Guarded step C s₀ [] := by
  intro pre e post s h
  simp at h

/-- A condition along a run, from its first step on. -/
theorem guarded_cons {step : σ → ε → Option σ} {C : List ε → σ → ε → Prop} {s₀ s₁ : σ} {es : List ε} {e : ε}
    (hstep : step s₀ e = some s₁) :
    Guarded step C s₀ (e :: es) ↔ C [] s₀ e ∧ Guarded step (fun pre => C (e :: pre)) s₁ es := by
  constructor
  · intro h
    refine ⟨h [] e es s₀ rfl rfl, fun pre x post m hes hm => ?_⟩
    exact h (e :: pre) x post m (by rw [hes, List.cons_append]) (by rw [run_cons, hstep, Option.bind_some, hm])
  · rintro ⟨he, hes⟩ pre x post m heq hm
    cases pre with
    | nil =>
      obtain ⟨rfl, rfl⟩ := List.cons.inj heq
      cases hm
      exact he
    | cons y pre =>
      obtain ⟨rfl, rfl⟩ := List.cons.inj heq
      rw [run_cons, hstep, Option.bind_some] at hm
      exact hes pre x post m rfl hm

theorem guarded_concat {step : σ → ε → Option σ} {C : List ε → σ → ε → Prop} {s₀ s : σ} {es : List ε}
    {e : ε} (hrun : run step s₀ es = some s) :
    Guarded step C s₀ (es ++ [e]) ↔ Guarded step C s₀ es ∧ C es s e := by
  constructor
  · intro h
    refine ⟨fun pre x post m hes hm => ?_, h es e [] s rfl hrun⟩
    exact h pre x (post ++ [e]) m (by simp [hes]) hm
  · rintro ⟨hes, he⟩ pre x post m heq hm
    rcases concat_eq_append_cons.mp heq with ⟨_, rfl, rfl⟩ | ⟨rest, _, hes'⟩
    · rw [hrun] at hm
      cases hm
      exact he
    · exact hes pre x rest m hes' hm

/-- What holds at the start and is kept by every step that meets the condition holds after every run
whose steps all meet it. -/
theorem guarded_induction {step : σ → ε → Option σ} {C : List ε → σ → ε → Prop} {s₀ s : σ} {es : List ε}
    {P : List ε → σ → Prop} (start : P [] s₀)
    (concat : ∀ es s e s', run step s₀ es = some s → C es s e → P es s → step s e = some s' →
      P (es ++ [e]) s')
    (hrun : run step s₀ es = some s) (hguard : Guarded step C s₀ es) : P es s := by
  refine run_induction (P := fun es s => Guarded step C s₀ es → P es s) (fun _ => start) ?_ hrun hguard
  intro es s e s' hes ih hstep hguard
  obtain ⟨hbefore, he⟩ := (guarded_concat hes).mp hguard
  exact concat es s e s' hes he (ih hbefore) hstep

/-- A property that a step keeps exactly when it meets `C`, and that no step brings back, holds after the runs
whose steps all meet `C`. -/
theorem holds_iff_guarded {step : σ → ε → Option σ} {P : σ → Prop} {C : List ε → σ → ε → Prop} {s₀ s : σ}
    {es : List ε} (start : P s₀)
    (hstep : ∀ es s e s', run step s₀ es = some s → step s e = some s' → (P s' ↔ P s ∧ C es s e))
    (hrun : run step s₀ es = some s) : P s ↔ Guarded step C s₀ es := by
  induction es using List.reverseRecOn generalizing s with
  | nil =>
    cases hrun
    exact iff_of_true start fun pre e post m h => by simp at h
  | append_singleton es e ih =>
    obtain ⟨m, hes, he⟩ := run_concat_eq_some.mp hrun
    rw [guarded_concat hes, ← ih hes]
    exact hstep es m e s hes he

/-- Every state of the run satisfies `P`, the first and the last included. -/
def Always (step : σ → ε → Option σ) (P : σ → Prop) (s₀ : σ) (es : List ε) : Prop :=
  ∀ pre post s, es = pre ++ post → run step s₀ pre = some s → P s

theorem always_concat {step : σ → ε → Option σ} {P : σ → Prop} {s₀ s : σ} {es : List ε} {e : ε}
    (hrun : run step s₀ (es ++ [e]) = some s) : Always step P s₀ (es ++ [e]) ↔ Always step P s₀ es ∧ P s := by
  constructor
  · intro h
    refine ⟨fun pre post m hes hm => h pre (post ++ [e]) m (by simp [hes]) hm, h (es ++ [e]) [] s (by simp) hrun⟩
  · rintro ⟨hes, hs⟩ pre post m heq hm
    induction post using List.reverseRecOn with
    | nil =>
      rw [List.append_nil] at heq
      rw [← heq, hrun] at hm
      cases hm
      exact hs
    | append_singleton post x _ =>
      rw [← List.append_assoc] at heq
      exact hes pre post m (List.append_inj' heq rfl).1 hm

/-- A property is lost exactly at the steps that miss the condition: where it held before a step, it holds after
it exactly when the step meets `C`. Then it holds all along a run exactly when every step meets `C`. -/
theorem always_iff_guarded {step : σ → ε → Option σ} {P : σ → Prop} {C : List ε → σ → ε → Prop} {s₀ s : σ}
    {es : List ε} (start : P s₀)
    (hstep : ∀ es s e s', run step s₀ es = some s → P s → step s e = some s' → (P s' ↔ C es s e))
    (hrun : run step s₀ es = some s) : Always step P s₀ es ↔ Guarded step C s₀ es := by
  induction es using List.reverseRecOn generalizing s with
  | nil =>
    constructor
    · intro _ pre e post m h
      simp at h
    · intro _ pre post m h hm
      obtain ⟨rfl, _⟩ := List.append_eq_nil_iff.mp h.symm
      cases hm
      exact start
  | append_singleton es e ih =>
    obtain ⟨m, hes, he⟩ := run_concat_eq_some.mp hrun
    rw [always_concat hrun, guarded_concat hes, ih hes]
    refine and_congr_right fun hguard => ?_
    have hbefore : P m := (ih hes).mpr hguard es [] m (by simp) hes
    exact hstep es m e s hes hbefore he

/-- Every event of the history meets `C`, a condition on the events before it and itself. -/
def Along (C : List ε → ε → Prop) (es : List ε) : Prop := ∀ pre e post, es = pre ++ e :: post → C pre e

theorem along_nil {C : List ε → ε → Prop} : Along C [] := by
  intro pre e post h
  simp at h

theorem along_concat {C : List ε → ε → Prop} {es : List ε} {e : ε} :
    Along C (es ++ [e]) ↔ Along C es ∧ C es e := by
  constructor
  · intro h
    exact ⟨fun pre x post hes => h pre x (post ++ [e]) (by simp [hes]), h es e [] rfl⟩
  · rintro ⟨hes, he⟩ pre x post heq
    rcases concat_eq_append_cons.mp heq with ⟨_, rfl, rfl⟩ | ⟨rest, _, hes'⟩
    · exact he
    · exact hes pre x rest hes'

/-- A condition along a history is one on each of its positions. -/
theorem along_iff_take {C : List ε → ε → Prop} {es : List ε} :
    Along C es ↔ ∀ k : Fin es.length, C (es.take k) (es.get k) := by
  constructor
  · intro h k
    refine h _ _ (es.drop (k + 1)) ?_
    rw [List.get_eq_getElem, List.getElem_cons_drop, List.take_append_drop]
  · rintro h pre e post rfl
    simpa using h ⟨pre.length, by simp⟩

instance {C : List ε → ε → Prop} [∀ pre e, Decidable (C pre e)] (es : List ε) : Decidable (Along C es) :=
  decidable_of_iff _ along_iff_take.symm

/-! ### The last event of a kind -/

/-- There is one last occurrence of an event. -/
theorem last_unique {e : ε} {pre pre' post post' : List ε} (h : pre ++ e :: post = pre' ++ e :: post')
    (hpost : e ∉ post) (hpost' : e ∉ post') : pre = pre' := by
  rcases List.append_eq_append_iff.mp h with ⟨mid, rfl, hmid⟩ | ⟨mid, rfl, hmid⟩
  · cases mid with
    | nil => simp
    | cons x mid =>
      obtain ⟨_, rfl⟩ := List.cons.inj hmid
      exact absurd (by simp) hpost
  · cases mid with
    | nil => simp
    | cons x mid =>
      obtain ⟨_, rfl⟩ := List.cons.inj hmid
      exact absurd (by simp) hpost'

/-- What the last event that `f` recognises says. -/
def lastOf (f : ε → Option α) (es : List ε) : Option α := es.foldl (fun acc e => (f e).or acc) none

@[simp] theorem lastOf_nil (f : ε → Option α) : lastOf f [] = none := rfl

@[simp] theorem lastOf_concat (f : ε → Option α) (es : List ε) (e : ε) :
    lastOf f (es ++ [e]) = (f e).or (lastOf f es) := by
  simp [lastOf]

theorem lastOf_append_none {f : ε → Option α} {es fs : List ε} (h : ∀ e ∈ fs, f e = none) :
    lastOf f (es ++ fs) = lastOf f es := by
  induction fs using List.reverseRecOn with
  | nil => simp
  | append_singleton fs e ih =>
    rw [← List.append_assoc, lastOf_concat, h e (by simp), Option.none_or]
    exact ih fun x hx => h x (by simp [hx])

theorem lastOf_congr {f g : ε → Option α} {es : List ε} (h : ∀ e ∈ es, f e = g e) : lastOf f es = lastOf g es := by
  induction es using List.reverseRecOn with
  | nil => rfl
  | append_singleton es e ih =>
    rw [lastOf_concat, lastOf_concat, h e (by simp), ih fun x hx => h x (by simp [hx])]

/-- The last event of a kind splits the history: nothing after it is of that kind. -/
theorem lastOf_eq_some {f : ε → Option α} {es : List ε} {a : α} :
    lastOf f es = some a ↔ ∃ pre e post, es = pre ++ e :: post ∧ f e = some a ∧ ∀ x ∈ post, f x = none := by
  constructor
  · induction es using List.reverseRecOn with
    | nil => simp
    | append_singleton es e ih =>
      intro h
      rw [lastOf_concat] at h
      cases he : f e with
      | some b =>
        rw [he] at h
        exact ⟨es, e, [], rfl, by rw [he]; exact h, by simp⟩
      | none =>
        rw [he, Option.none_or] at h
        obtain ⟨pre, x, post, rfl, hx, hpost⟩ := ih h
        refine ⟨pre, x, post ++ [e], by simp, hx, fun y hy => ?_⟩
        rcases List.mem_append.mp hy with hy | hy
        · exact hpost y hy
        · rw [List.mem_singleton.mp hy]
          exact he
  · rintro ⟨pre, e, post, rfl, he, hpost⟩
    rw [show pre ++ e :: post = (pre ++ [e]) ++ post by simp, lastOf_append_none hpost, lastOf_concat, he,
      Option.some_or]

/-! ### The events since the last one of a kind -/

/-- The events after the last one that satisfies `p`. -/
def since (p : ε → Bool) (es : List ε) : List ε := es.foldl (fun acc e => if p e then [] else acc ++ [e]) []

@[simp] theorem since_concat (p : ε → Bool) (es : List ε) (e : ε) :
    since p (es ++ [e]) = if p e then [] else since p es ++ [e] := by
  simp [since]

theorem since_suffix (p : ε → Bool) (es : List ε) : ∃ pre, es = pre ++ since p es := by
  induction es using List.reverseRecOn with
  | nil => exact ⟨[], rfl⟩
  | append_singleton es e ih =>
    obtain ⟨pre, hpre⟩ := ih
    rw [since_concat]
    split
    · exact ⟨es ++ [e], by simp⟩
    · refine ⟨pre, ?_⟩
      rw [← List.append_assoc, ← hpre]

end CloneProjects.EventRun
