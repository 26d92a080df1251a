import CloneProjects.Pods.JGProgressHUD
import CloneProjects.Tinder.Register.Gate

/-!
# The HUD of the Register screen

`registerHud` is one `JGProgressHUD` for every registration. The observer of `bindableRegistering` asks for a
dismissal after a second before it shows the HUD, so a HUD in the view always has a delay to come
(`AlwaysDelayed`), whatever becomes of the registration. A press that finds the HUD fading out shows nothing. The
flag `registerHud` of the screen alone says what the code last asked of the HUD: it is up while the HUD is shown,
and after such a press too (`registerHud_of_shown`).
-/

namespace CloneProjects.Tinder.Register.RegisterHud

open EventRun (run)

structure World where
  register : Register.World
  /-- `registerHud`, shown in the controller's view. -/
  hud : JGProgressHUD Unit

inductive Event
  | register (e : Register.Event)
  | delayOver (block : ℕ)
  | animationFinished

/-- What an event assigns to `bindableRegistering`. -/
def assigns (w : Register.World) : Register.Event → Option Bool
  | .registerButtonPressed =>
    match w.screen.registerViewModel.emailAdress, w.screen.registerViewModel.password with
    | some _, some _ => some true
    | _, _ => none
  | .downloadURLCallback _ (.ok _) => some false
  | _ => none

/-- The observer of `bindableRegistering`, on the HUD. -/
def observeRegistering (registering : Option Bool) (hud : JGProgressHUD Unit) : JGProgressHUD Unit :=
  if registering = some true then (hud.dismissAfterDelay true).showInView () true else hud.dismissAnimated true

/-- The HUD after an event, which tells the observer if it assigns. -/
def observed (w : Register.World) (e : Register.Event) (hud : JGProgressHUD Unit) : JGProgressHUD Unit :=
  match assigns w e with
  | some registering => observeRegistering (some registering) hud
  | none => hud

def step (w : World) : Event → Option World
  -- the end of a delay is one event of the screen and of its HUD: `delayOver`
  | .register .registerHudDelay => none
  | .register e => (Register.step w.register e).map fun register => ⟨register, observed w.register e w.hud⟩
  | .delayOver k => (w.hud.step (.delayOver k)).bind fun hud =>
      (Register.step w.register .registerHudDelay).map fun register => ⟨register, hud⟩
  | .animationFinished => (w.hud.step .animationFinished).map fun hud => { w with hud := hud }

/-- The screen opened on a state of Firebase. -/
def opened (accounts : List Account) (currentUser : Option String) (users : String → Option Infos) : World :=
  ⟨Register.opened accounts currentUser users, .initWithStyle⟩

section
variable {w w' : World} {e : Event}

theorem step_register {e : Register.Event} (hstep : step w (.register e) = some w') :
    e ≠ .registerHudDelay ∧ ∃ register, Register.step w.register e = some register ∧
      w' = ⟨register, observed w.register e w.hud⟩ := by
  have hdelay : e ≠ .registerHudDelay := by
    rintro rfl
    cases hstep
  refine ⟨hdelay, ?_⟩
  simp only [step] at hstep
  obtain ⟨register, hregister, rfl⟩ := Option.map_eq_some_iff.mp hstep
  exact ⟨register, hregister, rfl⟩

theorem step_delayOver {k : ℕ} (hstep : step w (.delayOver k) = some w') :
    ∃ register hud, Register.step w.register .registerHudDelay = some register ∧
      w.hud.step (.delayOver k) = some hud ∧ w' = ⟨register, hud⟩ := by
  obtain ⟨hud, hhud, hregister⟩ := Option.bind_eq_some_iff.mp hstep
  obtain ⟨register, hregister', rfl⟩ := Option.map_eq_some_iff.mp hregister
  exact ⟨register, hud, hregister', hhud, rfl⟩

theorem step_animationFinished (hstep : step w .animationFinished = some w') :
    ∃ hud, w.hud.step .animationFinished = some hud ∧ w' = { w with hud := hud } := by
  obtain ⟨hud, hhud, rfl⟩ := Option.map_eq_some_iff.mp hstep
  exact ⟨hud, hhud, rfl⟩

/-- `assigns` is what the screen's step assigns, and the flag follows it. -/
theorem step_assigns {r r' : Register.World} {e : Register.Event} (h : r.screen.Synced)
    (hdelay : e ≠ .registerHudDelay) (hstep : Register.step r e = some r') :
    r'.screen.bindableRegistering.value = (assigns r e).or r.screen.bindableRegistering.value ∧
      r'.screen.ui.registerHud = (assigns r e).getD r.screen.ui.registerHud := by
  have hregistered : ∀ error, (r.screen.registered error).bindableRegistering.value =
      r.screen.bindableRegistering.value ∧ (r.screen.registered error).ui.registerHud = r.screen.ui.registerHud := by
    rintro (_ | _) <;> exact ⟨rfl, rfl⟩
  have hsetRegistering : ∀ registering, (r.screen.setRegistering registering).bindableRegistering.value =
      some registering ∧ (r.screen.setRegistering registering).ui.registerHud = registering := by
    rintro (_ | _) <;>
      exact ⟨rfl, by simp [RegisterViewController.setRegistering, Bindable.assign, h.registeringObserver,
        registeringObserver]⟩
  cases e with
  | editingChanged field text =>
    rw [step_editingChanged hstep]
    cases field <;>
      exact ⟨rfl, by simp [RegisterViewController.catchTheTextFieldChange, RegisterViewController.setViewModel,
        Bindable.assign, h.validObserver, validObserver, assigns]⟩
  | didFinishPicking selectedImage =>
    rw [step_didFinishPicking hstep]
    exact ⟨rfl, by
      simp [RegisterViewController.setImage, Bindable.assign, h.imageObserver, imageObserver, assigns]⟩
  | registerButtonPressed =>
    rw [(step_registerButtonPressed hstep).2, assigns, World.userRegister]
    cases r.screen.registerViewModel.emailAdress with
    | none => exact ⟨rfl, rfl⟩
    | some emailAdress =>
      cases r.screen.registerViewModel.password with
      | none => exact ⟨rfl, rfl⟩
      | some password => exact hsetRegistering true
  | registerHudDelay => exact absurd rfl hdelay
  | createUserCallback i result =>
    obtain ⟨_, _, _, ⟨_, rfl, rfl⟩ | ⟨_, rfl, _, rfl⟩⟩ := step_createUserCallback hstep
    · exact hregistered _
    · exact ⟨rfl, rfl⟩
  | putDataCallback i error =>
    obtain ⟨_, _, ⟨_, rfl, rfl⟩ | ⟨rfl, rfl⟩⟩ := step_putDataCallback hstep
    · exact hregistered _
    · exact ⟨rfl, rfl⟩
  | downloadURLCallback i result =>
    obtain ⟨_, ⟨_, rfl, rfl⟩ | ⟨_, rfl, rfl⟩⟩ := step_downloadURLCallback hstep
    · exact hregistered _
    · exact hsetRegistering false
  | setDataCallback i error =>
    obtain ⟨_, _, _, ⟨_, rfl, rfl⟩ | ⟨rfl, rfl⟩⟩ := step_setDataCallback hstep
    · exact hregistered _
    · exact hregistered _

/-- Every press of the enabled button assigns `true`. -/
theorem press_assigns {r r' : Register.World} (h : r.screen.Synced)
    (hstep : Register.step r .registerButtonPressed = some r') : assigns r .registerButtonPressed = some true := by
  have hvalid : r.screen.registerViewModel.valid = true :=
    h.isEnabled.symm.trans (step_registerButtonPressed hstep).1
  simp only [RegisterViewModel.valid, Bool.and_eq_true] at hvalid
  obtain ⟨⟨hemail, _⟩, hpassword⟩ := hvalid
  simp only [assigns]
  cases hemailAdress : r.screen.registerViewModel.emailAdress with
  | none => simp [hemailAdress, isFilled] at hemail
  | some emailAdress =>
    cases hpass : r.screen.registerViewModel.password with
    | none => simp [hpass, isFilled] at hpassword
    | some password => rfl

/-- The invariant of the HUD: while it is shown, a delayed dismissal is to come. -/
structure AlwaysDelayed (hud : JGProgressHUD Unit) : Prop where
  consistent : hud.Consistent
  delayed : hud.phase = .shown () → hud.delayed ≠ []

/-- A show with its delay before it. -/
theorem AlwaysDelayed.registering {hud : JGProgressHUD Unit} (h : AlwaysDelayed hud) :
    AlwaysDelayed ((hud.dismissAfterDelay true).showInView () true) ∧
      (((hud.dismissAfterDelay true).showInView () true).phase = .shown () ↔ hud.phase ≠ .doomed ()) := by
  have hdelayed : (hud.dismissAfterDelay true).Consistent :=
    ⟨h.consistent.superview, h.consistent.fades, h.consistent.target, h.consistent.putOff, h.consistent.unhidden⟩
  obtain ⟨hconsistent, hbecomes⟩ := hdelayed.showInView () true
  refine ⟨⟨hconsistent, fun _ => ?_⟩, ?_⟩
  · unfold JGProgressHUD.showInView JGProgressHUD.fadeIn JGProgressHUD.dismissAfterDelay
    split
    · simp
    · split <;> simp
  · have hsame : (hud.dismissAfterDelay true).phase = hud.phase := rfl
    rw [hbecomes.shown_iff, hsame]
    cases hud.phase <;> simp [JGProgressHUD.Phase.presented]

/-- A dismissal leaves no HUD shown. -/
theorem not_shown_of_dismissed {hud hud' : JGProgressHUD Unit} (hbecomes : hud.phase.dismissed.Becomes hud'.phase) :
    hud'.phase ≠ .shown () := by
  intro hshown
  rw [hbecomes.shown_iff] at hshown
  cases hphase : hud.phase <;> simp [hphase, JGProgressHUD.Phase.dismissed] at hshown

theorem AlwaysDelayed.dismissed {hud hud' : JGProgressHUD Unit} (h : hud'.Consistent)
    (hbecomes : hud.phase.dismissed.Becomes hud'.phase) : AlwaysDelayed hud' :=
  ⟨h, fun hshown => absurd hshown (not_shown_of_dismissed hbecomes)⟩

/-- The invariant of the screen and its HUD: a HUD that is shown has its flag up. -/
structure Flagged (w : World) : Prop where
  synced : w.register.screen.Synced
  alwaysDelayed : AlwaysDelayed w.hud
  registerHud : w.hud.phase = .shown () → w.register.screen.ui.registerHud = true

theorem step_flagged (h : Flagged w) (hstep : step w e = some w') : Flagged w' := by
  cases e with
  | register e =>
    obtain ⟨hdelay, register, hregister, rfl⟩ := step_register hstep
    have hsynced := step_synced h.synced hregister
    have hflag := (step_assigns h.synced hdelay hregister).2
    simp only [observed]
    cases hassigns : assigns w.register e with
    | none =>
      rw [hassigns] at hflag
      exact ⟨hsynced, h.alwaysDelayed, fun hshown => hflag.trans (h.registerHud hshown)⟩
    | some registering =>
      rw [hassigns] at hflag
      cases registering with
      | true => exact ⟨hsynced, h.alwaysDelayed.registering.1, fun _ => hflag⟩
      | false =>
        obtain ⟨hconsistent, hbecomes⟩ := h.alwaysDelayed.consistent.dismissAnimated true
        exact ⟨hsynced, .dismissed hconsistent hbecomes,
          fun hshown => absurd hshown (not_shown_of_dismissed hbecomes)⟩
  | delayOver k =>
    obtain ⟨register, hud, hregister, hhud, rfl⟩ := step_delayOver hstep
    obtain ⟨hconsistent, hbecomes⟩ := JGProgressHUD.step_phase h.alwaysDelayed.consistent hhud
    exact ⟨step_synced h.synced hregister, .dismissed hconsistent hbecomes,
      fun hshown => absurd hshown (not_shown_of_dismissed hbecomes)⟩
  | animationFinished =>
    obtain ⟨hud, hhud, rfl⟩ := step_animationFinished hstep
    obtain ⟨hconsistent, hbecomes⟩ := JGProgressHUD.step_phase h.alwaysDelayed.consistent hhud
    have hdelayed : hud.delayed = w.hud.delayed := JGProgressHUD.step_animationFinished_delayed hhud
    have hbefore : hud.phase = .shown () → w.hud.phase = .shown () := hbecomes.shown_iff.mp
    refine ⟨h.synced, ⟨hconsistent, fun hshown => ?_⟩, fun hshown => h.registerHud (hbefore hshown)⟩
    rw [hdelayed]
    exact h.alwaysDelayed.delayed (hbefore hshown)

section runs
variable {accounts : List Account} {currentUser : Option String} {users : String → Option Infos} {es : List Event}

theorem run_flagged (hrun : run step (opened accounts currentUser users) es = some w) : Flagged w := by
  have hnotShown : (JGProgressHUD.initWithStyle : JGProgressHUD Unit).phase ≠ .shown () := by decide
  exact EventRun.run_invariant (fun _ _ _ h hstep => step_flagged h hstep)
    ⟨synced_viewDidLoad, ⟨JGProgressHUD.consistent_init, fun hshown => absurd hshown hnotShown⟩,
      fun hshown => absurd hshown hnotShown⟩ hrun

/-- **The flag and the HUD.** In every run a HUD that is shown has its flag up; and a press raises the flag, but shows
the HUD only if it does not find it on its way out. -/
theorem registerHud_of_shown (hrun : run step (opened accounts currentUser users) es = some w) :
    (w.hud.phase = .shown () → w.register.screen.ui.registerHud = true) ∧
    (∀ w', step w (.register .registerButtonPressed) = some w' → w'.register.screen.ui.registerHud = true ∧
      (w'.hud.phase = .shown () ↔ w.hud.phase ≠ .doomed ())) := by
  have h := run_flagged hrun
  refine ⟨h.registerHud, fun w' hstep => ?_⟩
  obtain ⟨hdelay, register, hregister, rfl⟩ := step_register hstep
  have hflag := (step_assigns h.synced hdelay hregister).2
  have hpress := press_assigns h.synced hregister
  rw [hpress] at hflag
  refine ⟨hflag, ?_⟩
  simp only [observed, hpress]
  exact h.alwaysDelayed.registering.2

/-- A second press that finds the HUD fading out raises the flag over a HUD it does not show. -/
example : (run step (opened [] none fun _ => none) [.register (.editingChanged .email "a@b.c"),
      .register (.editingChanged .nameSurname "Ada"), .register (.editingChanged .password "secret"),
      .register .registerButtonPressed, .animationFinished, .delayOver 0, .register .registerButtonPressed]).map
    (fun w => (w.register.screen.ui.registerHud, w.hud.phase)) = some (true, .doomed ()) := rfl

/-- **The Register HUD.** Whatever becomes of the registrations, the HUD is out of the view in every state in which no
delay and no animation is under way; and a press of the enabled button leaves it shown exactly if it does not find
it on its way out. -/
theorem register_hud_leaves (hrun : run step (opened accounts currentUser users) es = some w) :
    (w.hud.delayed = [] → w.hud.fades = 0 → w.hud.superview = none) ∧
    (∀ w', step w (.register .registerButtonPressed) = some w' →
      (w'.hud.phase = .shown () ↔ w.hud.phase ≠ .doomed ())) := by
  have h := (run_flagged hrun).alwaysDelayed
  refine ⟨fun hdelayed hfades => ?_, fun w' hstep => ((registerHud_of_shown hrun).2 w' hstep).2⟩
  rw [h.consistent.superview]
  refine Option.eq_none_iff_forall_ne_some.mpr fun view hview => h.delayed ?_ hdelayed
  refine JGProgressHUD.phase_of_rest hview ?_
  rw [← Bool.not_eq_true]
  intro ht
  rw [h.consistent.fades, if_pos ht] at hfades
  cases hfades

end runs

end

/-- A registration fails at `createUser`: the busy flag stays up, and the HUD goes after its second. -/
def refusedRegistration : List Event := [.register (.editingChanged .email "a@b.c"),
  .register (.editingChanged .nameSurname "Ada"), .register (.editingChanged .password "secret"),
  .register .registerButtonPressed, .animationFinished,
  .register (.createUserCallback 0 (.error ⟨"email in use"⟩)), .delayOver 0, .animationFinished]

theorem refusedRegistration_hud_leaves : ∃ w,
    run step (opened [] none fun _ => none) refusedRegistration = some w ∧ w.hud.superview = none := by
  have hrun : run step (opened [] none fun _ => none) refusedRegistration = some _ := rfl
  exact ⟨_, hrun, (register_hud_leaves hrun).1 rfl rfl⟩

end CloneProjects.Tinder.Register.RegisterHud
