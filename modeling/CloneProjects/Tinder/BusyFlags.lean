import CloneProjects.Tinder.Membership
import CloneProjects.Tinder.Register.Captured
import CloneProjects.Tinder.Register.Outcome

/-!
# The busy flags

`bindableRegistering` and `signingIn` go up with every call that passes its guard. No error path clears them,
the one assignment of `false` comes before the last request of its call, and `signIn` has none.
-/

namespace CloneProjects.Tinder.Register

/-- The call has not yet called its completion. -/
def Call.Runs (call : Call) : Prop := call.completions = []

/-- `bindableRegistering` is true exactly while a call runs. -/
def World.Truthful (w : World) : Prop := BusyFlag.Truthful Call.Runs w.screen.bindableRegistering.value w.calls

/-- The event clears the flag under no call, and if it ends a call another one runs. -/
def KeepsBusy (w : World) : Event → Prop
  | .downloadURLCallback _ (.ok _) => False
  | .createUserCallback i (.error _) | .putDataCallback i (some _) | .downloadURLCallback i (.error _)
  | .setDataCallback i _ => BusyFlag.OtherRuns Call.Runs w.calls i
  | _ => True

section
variable {w w' : World} {e : Event} {i : ℕ}

theorem runs_issue {call : Call} {request : Request} : (call.issue request).Runs ↔ call.Runs := Iff.rfl

theorem not_runs_complete {call : Call} {error : Option SwiftError} : ¬ (call.complete error).Runs := by
  simp [Call.Runs, Call.complete]

/-- The completion's HUD does not touch the flag. -/
theorem registered_bindableRegistering {screen : RegisterViewController} {error : Option SwiftError} :
    (screen.registered error).bindableRegistering = screen.bindableRegistering := by
  cases error <;> rfl

theorem press_passes (hsynced : w.screen.Synced) (hstep : step w .registerButtonPressed = some w') :
    w' = w.userRegister ∧ ∃ call, call.Runs ∧
      w.userRegister.calls = w.calls ++ [call] ∧ w.userRegister.screen = w.screen.setRegistering true := by
  have hcreates := press_creates hsynced hstep
  obtain ⟨_, rfl⟩ := step_registerButtonPressed hstep
  refine ⟨rfl, ?_⟩
  rcases userRegister_cases w with ⟨_, _, _, _, hpass⟩ | ⟨_, hguard⟩
  · rw [hpass]
    refine ⟨_, ?_, rfl, rfl⟩
    rfl
  · rw [hguard] at hcreates
    simp at hcreates

/-- Where the flag was truthful, it is truthful after exactly the steps that keep it busy. -/
theorem step_truthful (hsynced : w.screen.Synced)
    (hsilent : ∀ call ∈ w.calls, call.awaiting.isSome → call.completions = []) (h : w.Truthful)
    (hstep : step w e = some w') : w'.Truthful ↔ KeepsBusy w e := by
  have hruns : ∀ {i : ℕ} {request : Request}, w.awaiting i = some request →
      ∃ call, w.calls[i]? = some call ∧ call.Runs := by
    intro i request hawaiting
    obtain ⟨call, hcall, hrequest⟩ := awaiting_eq_some.mp hawaiting
    exact ⟨call, hcall, hsilent call (List.mem_of_getElem? hcall) (by simp [hrequest])⟩
  have hended : ∀ {i : ℕ} {request : Request} {error : Option SwiftError}, w.awaiting i = some request →
      ((w.complete i error).Truthful ↔ BusyFlag.OtherRuns Call.Runs w.calls i) := by
    intro i request error hawaiting
    obtain ⟨call, hcall, hrun⟩ := hruns hawaiting
    rw [World.Truthful, complete_calls, World.complete, registered_bindableRegistering]
    exact BusyFlag.truthful_ended hcall hrun not_runs_complete h
  cases e with
  | editingChanged field text =>
    rw [step_editingChanged hstep]
    refine iff_of_true ?_ trivial
    cases field <;> exact h
  | didFinishPicking selectedImage =>
    rw [step_didFinishPicking hstep]
    exact iff_of_true h trivial
  | registerButtonPressed =>
    obtain ⟨rfl, call, hcall, hcalls, hscreen⟩ := press_passes hsynced hstep
    refine iff_of_true ?_ trivial
    rw [World.Truthful, hcalls, hscreen]
    exact BusyFlag.truthful_started hcall
  | registerHudDelay =>
    rw [step_registerHudDelay hstep]
    exact iff_of_true h trivial
  | createUserCallback i result =>
    obtain ⟨_, _, hawaiting, ⟨error, rfl, rfl⟩ | ⟨uid, rfl, _, rfl⟩⟩ := step_createUserCallback hstep
    · exact hended hawaiting
    · obtain ⟨call, hcall, hrun⟩ := hruns hawaiting
      exact iff_of_true (BusyFlag.truthful_continued hcall hrun hrun h) trivial
  | putDataCallback i error =>
    obtain ⟨_, hawaiting, ⟨error, rfl, rfl⟩ | ⟨rfl, rfl⟩⟩ := step_putDataCallback hstep
    · exact hended hawaiting
    · obtain ⟨call, hcall, hrun⟩ := hruns hawaiting
      exact iff_of_true (BusyFlag.truthful_continued hcall hrun (runs_issue.mpr hrun) h) trivial
  | downloadURLCallback i result =>
    obtain ⟨hawaiting, ⟨error, rfl, rfl⟩ | ⟨imageURL, rfl, rfl⟩⟩ := step_downloadURLCallback hstep
    · exact hended hawaiting
    · obtain ⟨call, hcall, hrun⟩ := hruns hawaiting
      exact iff_of_false (BusyFlag.not_truthful_cleared hcall hrun) id
  | setDataCallback i error =>
    obtain ⟨_, _, hawaiting, ⟨error, rfl, rfl⟩ | ⟨rfl, rfl⟩⟩ := step_setDataCallback hstep
    · exact hended hawaiting
    · exact hended hawaiting

end

/-- `bindableRegistering` tells the truth all along a run exactly when no `downloadURL` succeeds in it and no
callback ends the only call that runs. -/
theorem always_truthful_iff {accounts : List Account} {currentUser : Option String}
    {users : String → Option Infos} {es : List Event} {w : World}
    (hrun : EventRun.run step (opened accounts currentUser users) es = some w) :
    EventRun.Always step World.Truthful (opened accounts currentUser users) es ↔
      EventRun.Guarded step (fun _ => KeepsBusy) (opened accounts currentUser users) es := by
  refine EventRun.always_iff_guarded (C := fun _ => KeepsBusy) (BusyFlag.truthful_nil nofun) ?_ hrun
  exact fun _ _ _ _ hes h hstep => step_truthful (run_synced hes) (run_silent hes) h hstep

end CloneProjects.Tinder.Register

namespace CloneProjects.Tinder

open EventRun (run Always Guarded)

/-- **The busy flags.** In every state of a run of registrations `bindableRegistering` is true exactly while a
call runs, if and only if no `downloadURL` succeeds in the run and no callback ends the only call that runs;
and the same of `signingIn`, if and only if no callback ends the only `signIn` that runs. -/
theorem busy_flags_truthful_iff {accounts : List Register.Account} {currentUser : Option String}
    {users : String → Option Infos} {es : List Register.Event} {w : Register.World}
    {fs : List Membership.Event} {v : Membership.World}
    (hregister : run Register.step (Register.opened accounts currentUser users) es = some w)
    (hmembership : run Membership.step Membership.opened fs = some v) :
    (Always Register.step Register.World.Truthful (Register.opened accounts currentUser users) es ↔
      Guarded Register.step (fun _ => Register.KeepsBusy) (Register.opened accounts currentUser users) es) ∧
    (Always Membership.step Membership.World.Truthful Membership.opened fs ↔
      Guarded Membership.step (fun _ => Membership.KeepsBusy) Membership.opened fs) :=
  ⟨Register.always_truthful_iff hregister, Membership.always_truthful_iff hmembership⟩

/-- Two sign-ins of one user. -/
def twoSignIns : List Membership.Event :=
  [.setEmailAdress (some "a@b.c"), .setPassword (some "secret"), .signIn, .signIn]

/-- A registration on its way, and two sign-ins the first of which is answered: both flags tell the truth. -/
theorem busy_flags_truthful_overlapping :
    Always Register.step Register.World.Truthful (Register.opened [] none fun _ => none)
      (Register.filledForm ++ [.registerButtonPressed]) ∧
    Always Membership.step Membership.World.Truthful Membership.opened (twoSignIns ++ [.signInCallback 0 none]) := by
  have hregister : run Register.step (Register.opened [] none fun _ => none)
    (Register.filledForm ++ [.registerButtonPressed]) = some _ := rfl
  have hmembership : run Membership.step Membership.opened (twoSignIns ++ [.signInCallback 0 none]) = some _ := rfl
  obtain ⟨hregistering, hsigningIn⟩ := busy_flags_truthful_iff hregister hmembership
  refine ⟨hregistering.mpr (EventRun.guarded_of_forall fun e hmem pre s => ?_),
    hsigningIn.mpr ((EventRun.guarded_concat rfl).mpr ⟨EventRun.guarded_of_forall fun e hmem pre s => ?_, ?_⟩)⟩
  · simp only [Register.filledForm, List.cons_append, List.nil_append, List.mem_cons, List.not_mem_nil,
      or_false] at hmem
    rcases hmem with rfl | rfl | rfl | rfl | rfl <;> trivial
  · simp only [twoSignIns, List.mem_cons, List.not_mem_nil, or_false] at hmem
    rcases hmem with rfl | rfl | rfl | rfl <;> trivial
  · exact ⟨1, ⟨"a@b.c", "secret", []⟩, by decide, rfl, rfl⟩

/-- A registration whose `createUser` fails leaves `bindableRegistering` true, and a sign-in that is answered
leaves `signingIn` true. -/
theorem busy_flags_lie :
    (¬ ∀ es w, run Register.step (Register.opened [] none fun _ => none) es = some w → w.Truthful) ∧
    ¬ ∀ es w, run Membership.step Membership.opened es = some w → w.Truthful := by
  constructor
  · intro h
    have hfailed := h (Register.filledForm ++ [.registerButtonPressed,
      .createUserCallback 0 (.error ⟨"email in use"⟩)]) _ rfl
    obtain ⟨call, hmem, hruns⟩ := hfailed.mp rfl
    rw [List.mem_singleton.mp hmem] at hruns
    cases hruns
  · intro h
    have hanswered := h [.setEmailAdress (some "a@b.c"), .setPassword (some "secret"), .signIn,
      .signInCallback 0 none] _ rfl
    obtain ⟨call, hmem, hruns⟩ := hanswered.mp rfl
    rw [List.mem_singleton.mp hmem] at hruns
    cases hruns

end CloneProjects.Tinder
