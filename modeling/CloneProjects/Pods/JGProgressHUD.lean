import CloneProjects.Base.Run
import Mathlib.Algebra.Order.Ring.Rat

/-!
# JGProgressHUD

Showing and dismissing a HUD. Both are animated: while an animation runs a show is ignored, and a dismissal is
put off until the animation is over. Seen from outside a HUD is hidden, shown, or on its way out (`Phase`);
`step_phase` says that the code refines these three phases.
-/

namespace CloneProjects

/-- `JGProgressHUD`, with the fade animation it makes itself. The apps set neither a delegate nor
`minimumDisplayTime`. -/
structure JGProgressHUD (View : Type) where
  targetView : Option View
  superview : Option View
  hidden : Bool
  alpha : ℚ
  transitioning : Bool
  dismissAfterTransitionFinished : Bool
  dismissAfterTransitionFinishedWithAnimation : Bool
  /-- `_presenting` of the animation. -/
  presenting : Bool
  /-- The fades whose completion has not been called. -/
  fades : ℕ
  /-- The blocks of `dispatch_after` that have not run: the `animated` each has captured. -/
  delayed : List Bool

namespace JGProgressHUD
variable {View : Type}

def initWithStyle : JGProgressHUD View := ⟨none, none, true, 1, false, false, false, false, 0, []⟩

/-- `show` of `JGProgressHUDFadeAnimation`. -/
def fadeIn (hud : JGProgressHUD View) : JGProgressHUD View :=
  { hud with presenting := true, alpha := 1, hidden := false, fades := hud.fades + 1 }

/-- `hide` of `JGProgressHUDFadeAnimation`. -/
def fadeOut (hud : JGProgressHUD View) : JGProgressHUD View :=
  { hud with presenting := false, alpha := 0, fades := hud.fades + 1 }

def cleanUpAfterDismissal (hud : JGProgressHUD View) : JGProgressHUD View :=
  { hud with
    hidden := true
    superview := none
    transitioning := false
    dismissAfterTransitionFinished := false
    dismissAfterTransitionFinishedWithAnimation := false
    targetView := none }

def dismissAnimated (animated : Bool) (hud : JGProgressHUD View) : JGProgressHUD View :=
  if hud.transitioning then
    { hud with dismissAfterTransitionFinished := true, dismissAfterTransitionFinishedWithAnimation := animated }
  else if hud.targetView.isNone then hud
  else if animated then fadeOut { hud with transitioning := true }
  else cleanUpAfterDismissal { hud with transitioning := true }

def cleanUpAfterPresentation (hud : JGProgressHUD View) : JGProgressHUD View :=
  let hud := { hud with hidden := false, transitioning := false }
  if hud.dismissAfterTransitionFinished then
    { hud.dismissAnimated hud.dismissAfterTransitionFinishedWithAnimation with
      dismissAfterTransitionFinished := false
      dismissAfterTransitionFinishedWithAnimation := false }
  else hud

def showInView (view : View) (animated : Bool) (hud : JGProgressHUD View) : JGProgressHUD View :=
  if hud.transitioning then hud
  else if hud.targetView.isSome then hud
  else
    let hud := { hud with targetView := some view, superview := some view, transitioning := true }
    if animated then hud.fadeIn else hud.cleanUpAfterPresentation

def dismissAfterDelay (animated : Bool) (hud : JGProgressHUD View) : JGProgressHUD View :=
  { hud with delayed := hud.delayed ++ [animated] }

/-- The block of `dismissAfterDelay`. -/
def delayOver (animated : Bool) (hud : JGProgressHUD View) : JGProgressHUD View :=
  if hud.superview.isSome then hud.dismissAnimated animated else hud

def animationDidFinish (hud : JGProgressHUD View) : JGProgressHUD View :=
  if hud.presenting then hud.cleanUpAfterPresentation else hud.cleanUpAfterDismissal

inductive Event (View : Type)
  | showInView (view : View) (animated : Bool)
  | dismissAnimated (animated : Bool)
  | dismissAfterDelay (animated : Bool)
  /-- The time of a delayed dismissal has come. -/
  | delayOver (block : ℕ)
  /-- The completion of a fade. -/
  | animationFinished

def step (hud : JGProgressHUD View) : Event View → Option (JGProgressHUD View)
  | .showInView view animated => some (hud.showInView view animated)
  | .dismissAnimated animated => some (hud.dismissAnimated animated)
  | .dismissAfterDelay animated => some (hud.dismissAfterDelay animated)
  | .delayOver k => (hud.delayed[k]?).map fun animated =>
      delayOver animated { hud with delayed := hud.delayed.eraseIdx k }
  | .animationFinished =>
    if 0 < hud.fades then some (animationDidFinish { hud with fades := hud.fades - 1 }) else none

/-! ### The phases -/

/-- A HUD from outside. A doomed one leaves its view as soon as the animations under way are over. -/
inductive Phase (View : Type)
  | hidden
  | shown (view : View)
  | doomed (view : View)
  deriving DecidableEq

/-- A show counts on a hidden HUD alone. -/
def Phase.presented (view : View) : Phase View → Phase View
  | .hidden => .shown view
  | phase => phase

def Phase.dismissed : Phase View → Phase View
  | .shown view => .doomed view
  | phase => phase

/-- What a call asks of the phase. -/
def Phase.next (phase : Phase View) : Event View → Phase View
  | .showInView view _ => phase.presented view
  | .dismissAnimated _ | .delayOver _ => phase.dismissed
  | .dismissAfterDelay _ | .animationFinished => phase

/-- A doomed HUD may go at any time. -/
def Phase.Becomes (phase phase' : Phase View) : Prop :=
  phase' = phase ∨ ∃ view, phase = .doomed view ∧ phase' = .hidden

def phase (hud : JGProgressHUD View) : Phase View :=
  match hud.targetView with
  | none => .hidden
  | some view =>
    if hud.transitioning && (!hud.presenting || hud.dismissAfterTransitionFinished) then .doomed view
    else .shown view

/-- What holds between two calls: a transition is one fade of a HUD in a view, and only then a dismissal is put
off. A shown HUD is not `hidden`. -/
structure Consistent (hud : JGProgressHUD View) : Prop where
  superview : hud.superview = hud.targetView
  fades : hud.fades = if hud.transitioning then 1 else 0
  target : hud.transitioning = true → hud.targetView.isSome = true
  putOff : hud.dismissAfterTransitionFinished = true → hud.transitioning = true
  unhidden : hud.targetView.isSome = true → hud.hidden = false

open EventRun (run)

section
variable {hud hud' : JGProgressHUD View} {e : Event View} {view : View}

theorem consistent_init : (initWithStyle : JGProgressHUD View).Consistent :=
  ⟨rfl, rfl, nofun, nofun, nofun⟩

theorem phase_of_target_none (h : hud.targetView = none) : hud.phase = .hidden := by
  simp [phase, h]

theorem phase_of_target {b : Bool} (h : hud.targetView = some view)
    (hb : (hud.transitioning && (!hud.presenting || hud.dismissAfterTransitionFinished)) = b) :
    hud.phase = if b then .doomed view else .shown view := by
  simp [phase, h, hb]

/-- A HUD at rest in a view is shown. -/
theorem phase_of_rest (h : hud.targetView = some view) (hrest : hud.transitioning = false) :
    hud.phase = .shown view := by
  simp [phase, h, hrest]

theorem target_of_phase (h : hud.phase = .shown view) : hud.targetView = some view := by
  unfold phase at h
  split at h
  · cases h
  · rename_i v hv
    split at h
    · cases h
    · rw [hv, Phase.shown.inj h]

/-! ### What each call does -/

/-- A dismissal ends the phase of a shown HUD, at once or after the animations. -/
theorem Consistent.dismissAnimated (h : hud.Consistent) (animated : Bool) :
    (hud.dismissAnimated animated).Consistent ∧
      hud.phase.dismissed.Becomes (hud.dismissAnimated animated).phase := by
  unfold JGProgressHUD.dismissAnimated
  split
  · rename_i ht
    obtain ⟨view, hview⟩ := Option.isSome_iff_exists.mp (h.target ht)
    refine ⟨⟨h.superview, h.fades, h.target, fun _ => ht, h.unhidden⟩, .inl ?_⟩
    have hdoomed : phase { hud with
        dismissAfterTransitionFinished := true
        dismissAfterTransitionFinishedWithAnimation := animated } = .doomed view := by
      simp [phase, hview, ht]
    rw [hdoomed, phase_of_target hview rfl]
    split <;> rfl
  · rename_i ht
    rw [Bool.not_eq_true] at ht
    split
    · rename_i hnone
      rw [Option.isNone_iff_eq_none] at hnone
      exact ⟨h, .inl (by rw [phase_of_target_none hnone]; rfl)⟩
    · rename_i hsome
      obtain ⟨view, hview⟩ := Option.ne_none_iff_exists'.mp (mt Option.isNone_iff_eq_none.mpr hsome)
      have hfades := h.fades
      rw [ht] at hfades
      rw [phase_of_rest hview ht]
      split
      · refine ⟨⟨h.superview, by simp [fadeOut, hfades], fun _ => by simp [fadeOut, hview], fun _ => rfl, h.unhidden⟩,
          .inl ?_⟩
        simp [fadeOut, phase, hview, Phase.dismissed]
      · refine ⟨⟨rfl, hfades, nofun, nofun, nofun⟩, .inr ⟨view, rfl, rfl⟩⟩

/-- The end of a presentation, with or without a dismissal that was put off. -/
theorem Consistent.cleanUpAfterPresentation {putOff : Bool} (hview : hud.targetView = some view)
    (hsuper : hud.superview = some view) (hfades : hud.fades = 0)
    (hputOff : hud.dismissAfterTransitionFinished = putOff) : hud.cleanUpAfterPresentation.Consistent ∧
      (if putOff then .doomed view else .shown view : Phase View).Becomes hud.cleanUpAfterPresentation.phase := by
  subst hputOff
  unfold JGProgressHUD.cleanUpAfterPresentation
  simp only
  split
  · cases hud.dismissAfterTransitionFinishedWithAnimation with
    | true =>
      simp only [JGProgressHUD.dismissAnimated, hview, fadeOut, Bool.false_eq_true, ↓reduceIte, Option.isNone_some]
      refine ⟨⟨hsuper, by simp [hfades], fun _ => rfl, nofun, fun _ => rfl⟩, .inl ?_⟩
      simp [phase]
    | false =>
      simp only [JGProgressHUD.dismissAnimated, hview, cleanUpAfterDismissal, Bool.false_eq_true, ↓reduceIte,
        Option.isNone_some]
      exact ⟨⟨rfl, hfades, nofun, nofun, nofun⟩, .inr ⟨view, rfl, rfl⟩⟩
  · rename_i hputOff
    refine ⟨⟨hsuper.trans hview.symm, hfades, nofun, fun h => absurd h hputOff, fun _ => rfl⟩, .inl ?_⟩
    simp [phase, hview]

theorem Consistent.showInView (h : hud.Consistent) (view : View) (animated : Bool) :
    (hud.showInView view animated).Consistent ∧
      (hud.phase.presented view).Becomes (hud.showInView view animated).phase := by
  have hignored : hud.targetView.isSome = true → (hud.phase.presented view).Becomes hud.phase := by
    intro hsome
    obtain ⟨v, hv⟩ := Option.isSome_iff_exists.mp hsome
    refine .inl ?_
    rw [phase_of_target hv rfl]
    split <;> rfl
  unfold JGProgressHUD.showInView
  split
  · rename_i ht
    exact ⟨h, hignored (h.target ht)⟩
  · rename_i ht
    rw [Bool.not_eq_true] at ht
    have hfades := h.fades
    rw [ht] at hfades
    have hputOff : hud.dismissAfterTransitionFinished = false := by
      rw [← Bool.not_eq_true]
      intro hput
      rw [h.putOff hput] at ht
      cases ht
    split
    · rename_i hsome
      exact ⟨h, hignored hsome⟩
    · rename_i hnone
      rw [Bool.not_eq_true, Option.isSome_eq_false_iff, Option.isNone_iff_eq_none] at hnone
      rw [phase_of_target_none hnone]
      split
      · refine ⟨⟨rfl, by simp [fadeIn, hfades], fun _ => rfl, fun _ => rfl, fun _ => rfl⟩, .inl ?_⟩
        simp [fadeIn, phase, hputOff, Phase.presented]
      · exact @Consistent.cleanUpAfterPresentation View
          { hud with targetView := some view, superview := some view, transitioning := true } view false rfl rfl hfades
          hputOff

/-- The completion of a fade brings the HUD to rest, or starts the dismissal that was put off. -/
theorem Consistent.animationDidFinish (h : hud.Consistent) (hfades : 0 < hud.fades) :
    (JGProgressHUD.animationDidFinish { hud with fades := hud.fades - 1 }).Consistent ∧
      hud.phase.Becomes (JGProgressHUD.animationDidFinish { hud with fades := hud.fades - 1 }).phase := by
  have ht : hud.transitioning = true := by
    by_contra hfalse
    rw [h.fades, if_neg hfalse] at hfades
    omega
  have hone : hud.fades - 1 = 0 := by rw [h.fades, if_pos ht]
  obtain ⟨view, hview⟩ := Option.isSome_iff_exists.mp (h.target ht)
  unfold JGProgressHUD.animationDidFinish
  split
  · rename_i hpresenting
    rw [phase_of_target hview rfl]
    simp only at hpresenting
    simp only [ht, hpresenting, Bool.not_true, Bool.false_or, Bool.true_and]
    exact Consistent.cleanUpAfterPresentation hview (h.superview.trans hview) hone rfl
  · rename_i hpresenting
    simp only [Bool.not_eq_true] at hpresenting
    refine ⟨⟨rfl, hone, nofun, nofun, nofun⟩, .inr ⟨view, ?_, rfl⟩⟩
    simp [phase, hview, ht, hpresenting]

/-- Every call of a HUD is a step of its phase. -/
theorem step_phase (h : hud.Consistent) (hstep : step hud e = some hud') :
    hud'.Consistent ∧ (hud.phase.next e).Becomes hud'.phase := by
  cases e with
  | showInView view animated =>
    obtain rfl : _ = hud' := Option.some.inj hstep
    exact h.showInView view animated
  | dismissAnimated animated =>
    obtain rfl : _ = hud' := Option.some.inj hstep
    exact h.dismissAnimated animated
  | dismissAfterDelay animated =>
    obtain rfl : _ = hud' := Option.some.inj hstep
    exact ⟨⟨h.superview, h.fades, h.target, h.putOff, h.unhidden⟩, .inl rfl⟩
  | delayOver k =>
    obtain ⟨animated, _, rfl⟩ := Option.map_eq_some_iff.mp hstep
    have hless : ({ hud with delayed := hud.delayed.eraseIdx k } : JGProgressHUD View).Consistent :=
      ⟨h.superview, h.fades, h.target, h.putOff, h.unhidden⟩
    unfold delayOver
    split
    · exact hless.dismissAnimated animated
    · rename_i hnone
      refine ⟨hless, .inl ?_⟩
      rw [Bool.not_eq_true, Option.isSome_eq_false_iff, Option.isNone_iff_eq_none] at hnone
      rw [Phase.next, phase_of_target_none (h.superview.symm.trans hnone)]
      exact phase_of_target_none (h.superview.symm.trans hnone)
  | animationFinished =>
    simp only [step] at hstep
    split at hstep
    · rename_i hfades
      obtain rfl : _ = hud' := Option.some.inj hstep
      exact h.animationDidFinish hfades
    · cases hstep

/-- A completion that leaves the HUD shown leaves its alpha alone. -/
theorem cleanUpAfterPresentation_alpha (hview : hud.targetView = some view)
    (hshown : hud.cleanUpAfterPresentation.phase = .shown view) : hud.cleanUpAfterPresentation.alpha = hud.alpha := by
  unfold JGProgressHUD.cleanUpAfterPresentation at hshown ⊢
  simp only at hshown ⊢
  split
  · rename_i hputOff
    rw [if_pos hputOff] at hshown
    cases hanimated : hud.dismissAfterTransitionFinishedWithAnimation <;>
      simp [JGProgressHUD.dismissAnimated, hanimated, hview, fadeOut, cleanUpAfterDismissal, phase] at hshown
  · rfl

/-- Nothing fades a HUD that stays shown. -/
theorem step_alpha (h : hud.Consistent) (hstep : step hud e = some hud') (hbefore : hud.phase = .shown view)
    (hshown : hud'.phase = .shown view) : hud'.alpha = hud.alpha := by
  have hview := target_of_phase hbefore
  have hbecomes := (step_phase h hstep).2
  rw [hbefore] at hbecomes
  cases e with
  | showInView v animated =>
    obtain rfl : _ = hud' := Option.some.inj hstep
    unfold JGProgressHUD.showInView
    rw [hview]
    split <;> rfl
  | dismissAnimated animated | delayOver k =>
    rw [hshown] at hbecomes
    obtain hsame | ⟨_, _, hhidden⟩ := hbecomes <;> contradiction
  | dismissAfterDelay animated =>
    obtain rfl : _ = hud' := Option.some.inj hstep
    rfl
  | animationFinished =>
    simp only [step] at hstep
    split at hstep
    · obtain rfl : _ = hud' := Option.some.inj hstep
      unfold JGProgressHUD.animationDidFinish at hshown ⊢
      split
      · rename_i hpresenting
        rw [if_pos hpresenting] at hshown
        exact cleanUpAfterPresentation_alpha hview hshown
      · rename_i hpresenting
        rw [if_neg hpresenting] at hshown
        cases hshown
    · cases hstep

/-- The end of a fade leaves the delays alone. -/
theorem step_animationFinished_delayed (hstep : step hud .animationFinished = some hud') :
    hud'.delayed = hud.delayed := by
  have hdismiss : ∀ (animated : Bool) (hud : JGProgressHUD View),
      (hud.dismissAnimated animated).delayed = hud.delayed := by
    intro animated hud
    unfold JGProgressHUD.dismissAnimated
    split
    · rfl
    · split
      · rfl
      · split <;> rfl
  simp only [step] at hstep
  split at hstep
  · obtain rfl : _ = hud' := Option.some.inj hstep
    unfold JGProgressHUD.animationDidFinish JGProgressHUD.cleanUpAfterPresentation
    split
    · simp only
      split
      · exact hdismiss _ _
      · rfl
    · rfl
  · cases hstep

/-! ### Runs -/

/-- The call dismisses a HUD that is in a view. -/
def Event.dismisses : Event View → Bool
  | .dismissAnimated _ | .delayOver _ => true
  | _ => false

/-- A show found the HUD out of any view, and nothing has dismissed it since. -/
def Undismissed (es : List (Event View)) (view : View) (animated : Bool) : Prop :=
  ∃ pre post m, es = pre ++ .showInView view animated :: post ∧ run step initWithStyle pre = some m ∧
    m.superview = none ∧ ∀ e ∈ post, e.dismisses = false

variable {es : List (Event View)} {animated : Bool}

theorem Phase.Becomes.shown_iff {phase phase' : Phase View} (h : phase.Becomes phase') :
    phase' = .shown view ↔ phase = .shown view := by
  obtain rfl | ⟨v, rfl, rfl⟩ := h
  · rfl
  · simp

theorem undismissed_concat (hrun : run step initWithStyle es = some hud) :
    Undismissed (es ++ [e]) view animated ↔ (e = .showInView view animated ∧ hud.superview = none) ∨
      (e.dismisses = false ∧ Undismissed es view animated) := by
  constructor
  · rintro ⟨pre, post, m, heq, hpre, hnone, hpost⟩
    rcases EventRun.concat_eq_append_cons.mp heq with ⟨_, rfl, rfl⟩ | ⟨rest, rfl, rfl⟩
    · rw [hrun] at hpre
      cases hpre
      exact .inl ⟨rfl, hnone⟩
    · exact .inr ⟨hpost e (by simp), pre, rest, m, rfl, hpre, hnone, fun x hx => hpost x (by simp [hx])⟩
  · rintro (⟨rfl, hnone⟩ | ⟨he, pre, post, m, rfl, hpre, hnone, hpost⟩)
    · exact ⟨es, [], hud, rfl, hrun, hnone, by simp⟩
    · refine ⟨pre, post ++ [e], m, by simp, hpre, hnone, fun x hx => ?_⟩
      rcases List.mem_append.mp hx with hx | hx
      · exact hpost x hx
      · rw [List.mem_singleton.mp hx]
        exact he

theorem Consistent.superview_eq_none (h : hud.Consistent) : hud.superview = none ↔ hud.phase = .hidden := by
  rw [h.superview]
  constructor
  · exact phase_of_target_none
  · intro hphase
    unfold phase at hphase
    split at hphase
    · assumption
    · split at hphase <;> cases hphase

/-- A step shows the HUD exactly if it was shown and not dismissed, or hidden and presented. -/
theorem Phase.next_shown_iff {phase : Phase View} : phase.next e = .shown view ↔
    (∃ animated, e = .showInView view animated ∧ phase = .hidden) ∨ (e.dismisses = false ∧ phase = .shown view) := by
  cases phase <;> cases e <;> simp [Phase.next, Phase.presented, Phase.dismissed, Event.dismisses, eq_comm]

theorem run_shown (hrun : run step initWithStyle es = some hud) : hud.Consistent ∧
    ∀ view : View, hud.phase = .shown view ↔ ∃ animated, Undismissed es view animated := by
  refine EventRun.run_induction (P := fun es hud => hud.Consistent ∧
    ∀ view, hud.phase = .shown view ↔ ∃ animated, Undismissed es view animated)
    ⟨consistent_init, fun view => ?_⟩ ?_ hrun
  · refine iff_of_false nofun ?_
    rintro ⟨_, pre, post, _, heq, _⟩
    simp at heq
  · rintro es hud e hud' hes ⟨hconsistent, hshown⟩ hstep
    obtain ⟨hconsistent', hbecomes⟩ := step_phase hconsistent hstep
    refine ⟨hconsistent', fun view => ?_⟩
    rw [hbecomes.shown_iff, Phase.next_shown_iff, hshown view, ← hconsistent.superview_eq_none]
    simp only [undismissed_concat hes, exists_or, exists_and_left]

/-- A HUD that was shown with an animation and not dismissed is opaque. -/
theorem run_alpha (hrun : run step initWithStyle es = some hud) (h : Undismissed es view true) : hud.alpha = 1 := by
  refine EventRun.run_induction (P := fun es hud => Undismissed es view true → hud.alpha = 1) ?_ ?_ hrun h
  · rintro ⟨pre, post, _, heq, _⟩
    simp at heq
  · rintro es hud e hud' hes ih hstep h
    obtain ⟨hconsistent, hshown⟩ := run_shown hes
    rcases (undismissed_concat hes).mp h with ⟨rfl, hnone⟩ | ⟨_, hbefore⟩
    · obtain rfl : _ = hud' := Option.some.inj hstep
      have htarget : hud.targetView = none := hconsistent.superview.symm.trans hnone
      have hrest : hud.transitioning = false := by
        rw [← Bool.not_eq_true]
        intro ht
        have hsome := hconsistent.target ht
        rw [htarget] at hsome
        cases hsome
      simp [JGProgressHUD.showInView, hrest, htarget, fadeIn]
    · rw [step_alpha hconsistent hstep ((hshown view).mpr ⟨true, hbefore⟩)
        (((run_shown (EventRun.run_concat_eq_some.mpr ⟨hud, hes, hstep⟩)).2 view).mpr ⟨true, h⟩)]
      exact ih hbefore

/-- **Shown until dismissed.** In every state a HUD is in the view of the last show that found it out of any view,
visible and opaque if that show was animated, as long as nothing has dismissed it; and once its animations are over
it is in a view in no other case. -/
theorem in_view_until_dismissed (hrun : run step initWithStyle es = some hud) :
    (∀ view animated, Undismissed es view animated →
      hud.superview = some view ∧ hud.hidden = false ∧ (animated = true → hud.alpha = 1)) ∧
    (hud.fades = 0 → ∀ view : View, hud.superview = some view → ∃ animated, Undismissed es view animated) := by
  obtain ⟨hconsistent, hshown⟩ := run_shown hrun
  constructor
  · intro view animated h
    have htarget := target_of_phase ((hshown view).mpr ⟨animated, h⟩)
    refine ⟨hconsistent.superview.trans htarget, hconsistent.unhidden (by rw [htarget]; rfl), ?_⟩
    rintro rfl
    exact run_alpha hrun h
  · intro hfades view hview
    refine (hshown view).mp (phase_of_rest (hconsistent.superview.symm.trans hview) ?_)
    rw [← Bool.not_eq_true]
    intro ht
    rw [hconsistent.fades, if_pos ht] at hfades
    cases hfades

/-! ### The end of the animations -/

/-- The view a HUD is in once its animations are over. -/
def Phase.settled : Phase View → Option View
  | .shown view => some view
  | _ => none

/-- A HUD that fades out is gone with the next completion. -/
theorem finish_hiding (h : hud.Consistent) (ht : hud.transitioning = true) (hhiding : hud.presenting = false) :
    ∃ hud', step hud .animationFinished = some hud' ∧ hud'.fades = 0 ∧ hud'.superview = none := by
  have hone : hud.fades = 1 := by rw [h.fades, if_pos ht]
  refine ⟨_, if_pos (by omega), ?_⟩
  simp [JGProgressHUD.animationDidFinish, hhiding, cleanUpAfterDismissal, hone]

/-- A HUD that fades in is there with the next completion, gone with it or fading out. -/
theorem finish_showing (h : hud.Consistent) (ht : hud.transitioning = true) (hshowing : hud.presenting = true) :
    ∃ hud', step hud .animationFinished = some hud' ∧ hud'.Consistent ∧
      (hud'.fades = 0 ∧ hud'.superview = hud.phase.settled ∨
        hud'.transitioning = true ∧ hud'.presenting = false ∧ hud.phase.settled = none) := by
  have hone : hud.fades = 1 := by rw [h.fades, if_pos ht]
  obtain ⟨view, hview⟩ := Option.isSome_iff_exists.mp (h.target ht)
  have hstep : step hud .animationFinished = some (animationDidFinish { hud with fades := hud.fades - 1 }) :=
    if_pos (by omega)
  refine ⟨_, hstep, (step_phase h hstep).1, ?_⟩
  rw [phase_of_target hview rfl]
  cases hputOff : hud.dismissAfterTransitionFinished with
  | false =>
    left
    simp [JGProgressHUD.animationDidFinish, hshowing, JGProgressHUD.cleanUpAfterPresentation, hone,
      h.superview, hview, Phase.settled]
  | true =>
    cases hanimated : hud.dismissAfterTransitionFinishedWithAnimation with
    | false =>
      left
      simp [JGProgressHUD.animationDidFinish, hshowing, JGProgressHUD.cleanUpAfterPresentation, hone,
        JGProgressHUD.dismissAnimated, hview, cleanUpAfterDismissal, ht, Phase.settled]
    | true =>
      right
      simp [JGProgressHUD.animationDidFinish, hshowing, JGProgressHUD.cleanUpAfterPresentation,
        JGProgressHUD.dismissAnimated, hview, fadeOut, ht, Phase.settled]

/-- **Dismissals are carried out.** From every reachable state, at most two completions of animations bring a HUD to
rest: in its view if it is shown, out of any view if it was dismissed, whatever animation was under way then. -/
theorem comes_to_rest (hrun : run step initWithStyle es = some hud) : ∃ n ≤ 2, ∃ hud' : JGProgressHUD View,
    run step hud (List.replicate n .animationFinished) = some hud' ∧ hud'.fades = 0 ∧
      ∀ view, hud'.superview = some view ↔ ∃ animated, Undismissed es view animated := by
  obtain ⟨hconsistent, hshown⟩ := run_shown hrun
  have hsettled : ∀ {superview : Option View}, superview = hud.phase.settled →
      ∀ view, superview = some view ↔ ∃ animated, Undismissed es view animated := by
    rintro _ rfl view
    rw [← hshown view]
    cases hud.phase <;> simp [Phase.settled]
  cases ht : hud.transitioning with
  | false =>
    have hfades : hud.fades = 0 := by rw [hconsistent.fades, ht]; rfl
    refine ⟨0, by omega, hud, rfl, hfades, hsettled ?_⟩
    rw [hconsistent.superview]
    cases htarget : hud.targetView with
    | none => rw [phase_of_target_none htarget]; rfl
    | some view => rw [phase_of_rest htarget ht]; rfl
  | true =>
    cases hpresenting : hud.presenting with
    | false =>
      obtain ⟨hud', hstep, hrest, hgone⟩ := finish_hiding hconsistent ht hpresenting
      refine ⟨1, by omega, hud', by simp [hstep], hrest, hsettled ?_⟩
      obtain ⟨view, hview⟩ := Option.isSome_iff_exists.mp (hconsistent.target ht)
      rw [hgone, phase_of_target hview rfl, ht, hpresenting]
      rfl
    | true =>
      obtain ⟨hud₁, hstep, hconsistent₁, ⟨hrest, hview⟩ | ⟨ht₁, hhiding, hnone⟩⟩ :=
        finish_showing hconsistent ht hpresenting
      · exact ⟨1, by omega, hud₁, by simp [hstep], hrest, hsettled hview⟩
      · obtain ⟨hud₂, hstep₂, hrest, hgone⟩ := finish_hiding hconsistent₁ ht₁ hhiding
        refine ⟨2, le_rfl, hud₂, by simp [List.replicate, hstep, hstep₂], hrest, hsettled ?_⟩
        rw [hgone, hnone]

end

/-- A HUD is shown, and dismissed before it has faded in. -/
def shownBriefly : List (Event Unit) := [.showInView () true, .dismissAnimated true]

/-- Its dismissal is carried out. -/
theorem shownBriefly_comes_to_rest : ∃ hud, run step initWithStyle shownBriefly = some hud ∧
    ∃ n ≤ 2, ∃ hud', run step hud (List.replicate n .animationFinished) = some hud' ∧ hud'.superview = none := by
  have hrun : run step initWithStyle shownBriefly = some _ := rfl
  obtain ⟨n, hn, hud', hrest, _, hgone⟩ := comes_to_rest hrun
  refine ⟨_, hrun, n, hn, hud', hrest, Option.eq_none_iff_forall_ne_some.mpr fun view hview => ?_⟩
  obtain ⟨animated, hundismissed⟩ := (hgone view).mp hview
  have hshown : run step initWithStyle [.showInView () true] = some _ := rfl
  rcases (undismissed_concat hshown).mp hundismissed with ⟨hshow, _⟩ | ⟨hdismisses, _⟩
  · cases hshow
  · cases hdismisses

/-- A HUD that is shown and left alone stays. -/
theorem shown_in_view : ∃ hud : JGProgressHUD Unit,
    run step initWithStyle [.showInView () true, .animationFinished] = some hud ∧ hud.superview = some () := by
  have hrun : run step (initWithStyle : JGProgressHUD Unit) [.showInView () true, .animationFinished] = some _ := rfl
  have hundismissed : Undismissed [.showInView () true, .animationFinished] () true :=
    ⟨[], [.animationFinished], _, rfl, rfl, rfl, by simp [Event.dismisses]⟩
  exact ⟨_, hrun, ((in_view_until_dismissed hrun).1 () true hundismissed).1⟩

end JGProgressHUD

end CloneProjects
