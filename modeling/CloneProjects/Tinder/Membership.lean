import CloneProjects.Base.BusyFlag
import CloneProjects.Base.Run
import CloneProjects.Firebase
import CloneProjects.Tinder.Register.ViewModel

/-!
# The membership view model

`MembershipViewModel` is a class: its texts, its two `Bindable`s and the calls of `signIn` it has made. No
observer is installed on the `Bindable`s.
-/

namespace CloneProjects.Tinder.Membership

open Register (Bindable isFilled)

structure MembershipViewModel where
  signingIn : Bindable Bool Unit
  isEmailPasswordFormatVerified : Bindable Bool Unit
  emailAdress : Option String
  password : Option String

/-- `MembershipViewModel()`. -/
def MembershipViewModel.fresh : MembershipViewModel := ⟨.fresh, .fresh, none, none⟩

def MembershipViewModel.isEmailAndPassControl (viewModel : MembershipViewModel) : MembershipViewModel :=
  let verified := isFilled viewModel.emailAdress && isFilled viewModel.password
  { viewModel with
    isEmailPasswordFormatVerified := (viewModel.isEmailPasswordFormatVerified.assign (some verified) ()).1 }

/-- An assignment to `emailAdress`, with its `didSet`. -/
def MembershipViewModel.setEmailAdress (viewModel : MembershipViewModel) (emailAdress : Option String) :
    MembershipViewModel := { viewModel with emailAdress := emailAdress }.isEmailAndPassControl

/-- An assignment to `password`, with its `didSet`. -/
def MembershipViewModel.setPassword (viewModel : MembershipViewModel) (password : Option String) :
    MembershipViewModel := { viewModel with password := password }.isEmailAndPassControl

/-- One call of `signIn` that passed its guard. -/
structure Call where
  /-- What `Auth.auth().signIn` was asked with. -/
  withEmail : String
  password : String
  /-- What the completion closure was called with. -/
  completions : List (Option SwiftError)

structure World where
  viewModel : MembershipViewModel
  calls : List Call

inductive Event
  | setEmailAdress (emailAdress : Option String)
  | setPassword (password : Option String)
  | signIn
  | signInCallback (call : ℕ) (error : Option SwiftError)

def opened : World := ⟨.fresh, []⟩

def Call.complete (error : Option SwiftError) (call : Call) : Call :=
  { call with completions := call.completions ++ [error] }

def World.signIn (w : World) : World :=
  match w.viewModel.emailAdress, w.viewModel.password with
  | some emailAdress, some password => { w with
      viewModel := { w.viewModel with signingIn := (w.viewModel.signingIn.assign (some true) ()).1 }
      calls := w.calls ++ [⟨emailAdress, password, []⟩] }
  | _, _ => w

/-- Firebase answers every `signIn` once. -/
def step (w : World) : Event → Option World
  | .setEmailAdress emailAdress => some { w with viewModel := w.viewModel.setEmailAdress emailAdress }
  | .setPassword password => some { w with viewModel := w.viewModel.setPassword password }
  | .signIn => some w.signIn
  | .signInCallback i error =>
    match w.calls[i]? with
    | some call => if call.completions = [] then some { w with calls := w.calls.modify i (Call.complete error) }
      else none
    | none => none

/-! ### What each event can do -/

section
variable {w w' : World} {e : Event}

theorem step_signInCallback {i : ℕ} {error : Option SwiftError}
    (h : step w (.signInCallback i error) = some w') :
    ∃ call, w.calls[i]? = some call ∧ call.completions = [] ∧
      w' = { w with calls := w.calls.modify i (Call.complete error) } := by
  simp only [step] at h
  split at h
  · rename_i call hcall
    split at h
    · rename_i hsilent
      exact ⟨call, hcall, hsilent, by simpa using h.symm⟩
    · cases h
  · cases h

theorem signIn_cases (w : World) :
    (∃ emailAdress password, w.signIn = { w with
      viewModel := { w.viewModel with signingIn := (w.viewModel.signingIn.assign (some true) ()).1 }
      calls := w.calls ++ [⟨emailAdress, password, []⟩] }) ∨ w.signIn = w := by
  unfold World.signIn
  split
  · exact .inl ⟨_, _, rfl⟩
  · exact .inr rfl

end

/-! ### The busy flag -/

/-- The call has not yet called its completion. -/
def Call.Runs (call : Call) : Prop := call.completions = []

/-- `signingIn` is true exactly while a call runs. -/
def World.Truthful (w : World) : Prop := BusyFlag.Truthful Call.Runs w.viewModel.signingIn.value w.calls

/-- If the event ends a call, another one runs. -/
def KeepsBusy (w : World) : Event → Prop
  | .signInCallback i _ => BusyFlag.OtherRuns Call.Runs w.calls i
  | _ => True

theorem step_truthful {w w' : World} {e : Event} (h : w.Truthful) (hstep : step w e = some w') :
    w'.Truthful ↔ KeepsBusy w e := by
  cases e with
  | setEmailAdress emailAdress =>
    obtain rfl : _ = w' := Option.some.inj hstep
    exact iff_of_true h trivial
  | setPassword password =>
    obtain rfl : _ = w' := Option.some.inj hstep
    exact iff_of_true h trivial
  | signIn =>
    obtain rfl : w.signIn = w' := Option.some.inj hstep
    refine iff_of_true ?_ trivial
    rcases signIn_cases w with ⟨emailAdress, password, hpass⟩ | hguard
    · rw [hpass]
      exact BusyFlag.truthful_started rfl
    · rw [hguard]
      exact h
  | signInCallback i error =>
    obtain ⟨call, hcall, hsilent, rfl⟩ := step_signInCallback hstep
    exact BusyFlag.truthful_ended hcall hsilent (by simp [Call.Runs, Call.complete]) h

/-- `signingIn` tells the truth all along a run exactly when no callback ends the only call that runs. -/
theorem always_truthful_iff {es : List Event} {w : World} (hrun : EventRun.run step opened es = some w) :
    EventRun.Always step World.Truthful opened es ↔ EventRun.Guarded step (fun _ => KeepsBusy) opened es :=
  EventRun.always_iff_guarded (C := fun _ => KeepsBusy) (BusyFlag.truthful_nil (by decide))
    (fun _ _ _ _ _ h hstep => step_truthful h hstep) hrun

end CloneProjects.Tinder.Membership
