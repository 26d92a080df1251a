import CloneProjects.Tinder.Register.Screen

/-!
# The register form: its gate and its answers

The button is enabled exactly while the three texts are filled (`Synced`, an invariant of the screen), so
every press passes the guard of `userRegister` with the texts on the screen; and every call answers its
completion as its callbacks went (`Call.Follows`): nothing while it waits, then once, with the first error or
with success.
-/

namespace CloneProjects.Tinder.Register

/-! ### The gate -/

/-- The view model holds the texts of the fields, the observers are installed, and the button shows the
verdict of `controlOfValidData`. -/
structure RegisterViewController.Synced (screen : RegisterViewController) : Prop where
  email : screen.registerViewModel.emailAdress.getD "" = screen.ui.textFieldForEmail
  nameSurname : screen.registerViewModel.nameSurname.getD "" = screen.ui.textFieldForNameandSurname
  password : screen.registerViewModel.password.getD "" = screen.ui.textFieldForPassword
  isEnabled : screen.ui.isEnabled = screen.registerViewModel.valid
  validObserver : screen.bindableValidOfRegisterDatas.observer = some validObserver
  imageObserver : screen.bindableImage.observer = some imageObserver
  registeringObserver : screen.bindableRegistering.observer = some registeringObserver

theorem synced_viewDidLoad : viewDidLoad.Synced := ⟨rfl, rfl, rfl, by decide, rfl, rfl, rfl⟩

namespace RegisterViewController.Synced
variable {screen : RegisterViewController}

theorem catchTheTextFieldChange (h : screen.Synced) (text : String) (field : Field) :
    (screen.catchTheTextFieldChange text field).Synced := by
  obtain ⟨hemail, hname, hpassword, _, hvalid, himage, hregistering⟩ := h
  cases field with
  | email =>
    simp only [RegisterViewController.catchTheTextFieldChange, setViewModel, Bindable.assign, hvalid]
    exact ⟨rfl, hname, hpassword, rfl, rfl, himage, hregistering⟩
  | nameSurname =>
    simp only [RegisterViewController.catchTheTextFieldChange, setViewModel, Bindable.assign, hvalid]
    exact ⟨hemail, rfl, hpassword, rfl, rfl, himage, hregistering⟩
  | password =>
    simp only [RegisterViewController.catchTheTextFieldChange, setViewModel, Bindable.assign, hvalid]
    exact ⟨hemail, hname, rfl, rfl, rfl, himage, hregistering⟩

theorem setImage (h : screen.Synced) (selectedImage : Option UIImage) :
    (screen.setImage selectedImage).Synced := by
  simp only [RegisterViewController.setImage, Bindable.assign, h.imageObserver]
  exact ⟨h.email, h.nameSurname, h.password, h.isEnabled, h.validObserver, rfl, h.registeringObserver⟩

theorem setRegistering (h : screen.Synced) (registering : Bool) : (screen.setRegistering registering).Synced := by
  simp only [RegisterViewController.setRegistering, Bindable.assign, h.registeringObserver]
  cases registering
  · exact ⟨h.email, h.nameSurname, h.password, h.isEnabled, h.validObserver, h.imageObserver, rfl⟩
  · exact ⟨h.email, h.nameSurname, h.password, h.isEnabled, h.validObserver, h.imageObserver, rfl⟩

theorem registered (h : screen.Synced) (error : Option SwiftError) : (screen.registered error).Synced := by
  cases error with
  | none => exact h
  | some error =>
    exact ⟨h.email, h.nameSurname, h.password, h.isEnabled, h.validObserver, h.imageObserver,
      h.registeringObserver⟩

theorem hudDismissed (h : screen.Synced) (shown : Bool) :
    RegisterViewController.Synced { screen with ui := { screen.ui with registerHud := shown } } :=
  ⟨h.email, h.nameSurname, h.password, h.isEnabled, h.validObserver, h.imageObserver, h.registeringObserver⟩

/-- The button is enabled exactly while the three texts are filled. -/
theorem isEnabled_iff (h : screen.Synced) : screen.ui.isEnabled = true ↔
    screen.ui.textFieldForEmail ≠ "" ∧ screen.ui.textFieldForNameandSurname ≠ "" ∧
      screen.ui.textFieldForPassword ≠ "" := by
  have hfilled : ∀ text : Option String, isFilled text = true ↔ text.getD "" ≠ "" := by
    intro text
    cases text <;> simp [isFilled]
  rw [h.isEnabled, RegisterViewModel.valid, Bool.and_eq_true, Bool.and_eq_true, hfilled, hfilled, hfilled,
    h.email, h.nameSurname, h.password, and_assoc]

end RegisterViewController.Synced

theorem step_synced {w w' : World} {e : Event} (h : w.screen.Synced) (hstep : step w e = some w') :
    w'.screen.Synced := by
  cases e with
  | editingChanged field text =>
    rw [step_editingChanged hstep]
    exact h.catchTheTextFieldChange text field
  | didFinishPicking selectedImage =>
    rw [step_didFinishPicking hstep]
    exact h.setImage selectedImage
  | registerButtonPressed =>
    rw [(step_registerButtonPressed hstep).2]
    rcases userRegister_cases w with ⟨_, _, _, _, hpass⟩ | ⟨_, hguard⟩
    · rw [hpass]
      exact h.setRegistering true
    · rw [hguard]
      exact h
  | registerHudDelay =>
    rw [step_registerHudDelay hstep]
    exact h.hudDismissed false
  | createUserCallback i result =>
    obtain ⟨_, _, _, ⟨error, _, rfl⟩ | ⟨uid, _, _, rfl⟩⟩ := step_createUserCallback hstep
    · exact h.registered (some error)
    · exact h
  | putDataCallback i error =>
    obtain ⟨_, _, ⟨error, _, rfl⟩ | ⟨_, rfl⟩⟩ := step_putDataCallback hstep
    · exact h.registered (some error)
    · exact h
  | downloadURLCallback i result =>
    obtain ⟨_, ⟨error, _, rfl⟩ | ⟨imageURL, _, rfl⟩⟩ := step_downloadURLCallback hstep
    · exact h.registered (some error)
    · exact h.setRegistering false
  | setDataCallback i error =>
    obtain ⟨_, _, _, ⟨error, _, rfl⟩ | ⟨_, rfl⟩⟩ := step_setDataCallback hstep
    · exact h.registered (some error)
    · exact h.registered none

/-- A press of the enabled button makes a call that starts with `createUser` for the texts on the screen. -/
theorem press_creates {w w' : World} (h : w.screen.Synced) (hstep : step w .registerButtonPressed = some w') :
    w'.calls = w.calls ++ [Call.issue
      (.createUser w.screen.ui.textFieldForEmail w.screen.ui.textFieldForPassword)
      ⟨w.screen.registerViewModel, none, none, [], []⟩] := by
  obtain ⟨henabled, rfl⟩ := step_registerButtonPressed hstep
  obtain ⟨hemail, -, hpassword⟩ := h.isEnabled_iff.mp henabled
  rcases userRegister_cases w with ⟨emailAdress, password, he, hp, hpass⟩ | ⟨hnone | hnone, _⟩
  · rw [hpass, ← h.email, ← h.password, he, hp]
    rfl
  · exact absurd (by rw [← h.email, hnone]; rfl) hemail
  · exact absurd (by rw [← h.password, hnone]; rfl) hpassword

/-! ### The answers -/

/-- The outcomes of the callbacks of call `i`, in the order they fired. -/
def outcomes (i : ℕ) (es : List Event) : List (Option SwiftError) :=
  es.filterMap fun e => e.outcome.bind fun o => if o.1 = i then some o.2 else none

/-- The place of a request in the chain. -/
def Request.position : Request → ℕ
  | .createUser _ _ => 0
  | .putData _ => 1
  | .downloadURL => 2
  | .setData _ _ => 3

/-- A call has answered as the outcomes of its callbacks say. -/
def Call.Follows (call : Call) (outcomes : List (Option SwiftError)) : Prop :=
  match call.awaiting with
  | some request => Chain.Running request.position outcomes ∧ call.completions = []
  | none => call.completions = Chain.answers 4 outcomes ∧ call.completions.length = 1

theorem outcomes_concat_same {i : ℕ} {es : List Event} {e : Event} {error : Option SwiftError}
    (h : e.outcome = some (i, error)) : outcomes i (es ++ [e]) = outcomes i es ++ [error] := by
  simp [outcomes, List.filterMap_append, h]

theorem outcomes_concat_other {i : ℕ} {es : List Event} {e : Event} (h : ∀ error, e.outcome ≠ some (i, error)) :
    outcomes i (es ++ [e]) = outcomes i es := by
  have hnone : (e.outcome.bind fun o => if o.1 = i then some o.2 else none) = none := by
    cases ho : e.outcome with
    | none => rfl
    | some o =>
      rw [Option.bind_some, if_neg]
      rintro rfl
      exact h o.2 ho
  simp [outcomes, List.filterMap_append, hnone]

/-- A failing callback is passed on. -/
theorem Call.Follows.fail {call : Call} {os : List (Option SwiftError)} {request : Request}
    (h : call.Follows os) (hawaiting : call.awaiting = some request) (error : SwiftError) :
    (call.complete (some error)).Follows (os ++ [some error]) := by
  simp only [Call.Follows, hawaiting] at h
  obtain ⟨hrunning, hsilent⟩ := h
  simp only [Call.Follows, Call.complete, hsilent, List.nil_append, List.length_singleton, and_true]
  exact (Chain.answers_failed 4 hrunning error).symm

/-- A successful callback moves the call on to the next request. -/
theorem Call.Follows.advance {call call' : Call} {os : List (Option SwiftError)} {request next : Request}
    (h : call.Follows os) (hawaiting : call.awaiting = some request)
    (hnext : next.position = request.position + 1) (hcall : call'.completions = call.completions) :
    (call'.issue next).Follows (os ++ [none]) := by
  simp only [Call.Follows, hawaiting] at h
  simp only [Call.Follows, Call.issue, hnext, hcall]
  exact ⟨h.1.succ, h.2⟩

/-- The last callback's success ends the call. -/
theorem Call.Follows.finish {call : Call} {os : List (Option SwiftError)} {userID : String}
    {dataToBeAdded : Infos} (h : call.Follows os)
    (hawaiting : call.awaiting = some (.setData userID dataToBeAdded)) :
    (call.complete none).Follows (os ++ [none]) := by
  simp only [Call.Follows, hawaiting] at h
  obtain ⟨hrunning, hsilent⟩ := h
  simp only [Call.Follows, Call.complete, hsilent, List.nil_append, List.length_singleton, and_true]
  exact (Chain.answers_succeeded hrunning.succ).symm

/-- A step keeps every call in line: the call its callback belongs to moves with it, the others stay. -/
theorem step_follows {w w' : World} {e : Event} {es : List Event}
    (h : CallTable.All (fun i call => call.Follows (outcomes i es)) w.calls)
    (hnew : ∀ i, w.calls.length ≤ i → outcomes i es = []) (hstep : step w e = some w') :
    CallTable.All (fun i call => call.Follows (outcomes i (es ++ [e]))) w'.calls := by
  have hsame : e.outcome = none → CallTable.All (fun i call => call.Follows (outcomes i (es ++ [e]))) w.calls := by
    intro hnone
    refine h.mono fun i call hcall => ?_
    rwa [outcomes_concat_other (by simp [hnone])]
  have hmodify : ∀ {i : ℕ} {error : Option SwiftError} {f : Call → Call}, e.outcome = some (i, error) →
      (∀ call, w.calls[i]? = some call → call.Follows (outcomes i es) →
        (f call).Follows (outcomes i es ++ [error])) →
      CallTable.All (fun i call => call.Follows (outcomes i (es ++ [e]))) (w.calls.modify i f) := by
    intro i error f hout hf
    refine h.modify_of (fun j call hne hcall hfollows => ?_) fun call hcall hfollows => ?_
    · have hother : ∀ error', e.outcome ≠ some (j, error') := by
        intro error' heq
        rw [hout, Option.some.injEq, Prod.mk.injEq] at heq
        exact hne heq.1.symm
      rwa [outcomes_concat_other hother]
    · rw [outcomes_concat_same hout]
      exact hf call hcall hfollows
  cases step_effect hstep with
  | screenOnly screen hout => exact hsame hout
  | pressed screen hemail =>
    refine CallTable.All.concat (hsame rfl) ?_
    rw [outcomes_concat_other (by simp [Event.outcome]), hnew _ le_rfl]
    exact ⟨rfl, rfl⟩
  | failed hawaiting hout =>
    exact hmodify hout fun call hcall hfollows => hfollows.fail (awaiting_of_entry hawaiting hcall) _
  | accountCreated hawaiting hcan =>
    exact hmodify rfl fun call hcall hfollows => hfollows.advance (awaiting_of_entry hawaiting hcall) rfl rfl
  | imageSaved hawaiting =>
    exact hmodify rfl fun call hcall hfollows => hfollows.advance (awaiting_of_entry hawaiting hcall) rfl rfl
  | located hawaiting =>
    exact hmodify rfl fun call hcall hfollows => hfollows.advance (awaiting_of_entry hawaiting hcall) rfl rfl
  | userInfoSaved hawaiting =>
    exact hmodify rfl fun call hcall hfollows => hfollows.finish (awaiting_of_entry hawaiting hcall)

/-! ### Runs -/

section runs
variable {accounts : List Account} {currentUser : Option String} {users : String → Option Infos}
  {es : List Event} {w : World}

theorem run_synced (hrun : EventRun.run step (opened accounts currentUser users) es = some w) :
    w.screen.Synced :=
  EventRun.run_invariant (P := fun w => w.screen.Synced) (fun _ _ _ h hstep => step_synced h hstep)
    synced_viewDidLoad hrun

theorem run_follows (hrun : EventRun.run step (opened accounts currentUser users) es = some w) :
    CallTable.All (fun i call => call.Follows (outcomes i es)) w.calls := by
  have hboth : (∀ i, w.calls.length ≤ i → outcomes i es = []) ∧
      CallTable.All (fun i call => call.Follows (outcomes i es)) w.calls := by
    refine EventRun.run_induction (P := fun es w => (∀ i, w.calls.length ≤ i → outcomes i es = []) ∧
      CallTable.All (fun i call => call.Follows (outcomes i es)) w.calls) ?_ ?_ hrun
    · exact ⟨fun i _ => rfl, CallTable.all_nil⟩
    · intro es w e w' _ ⟨hnew, hfollows⟩ hstep
      refine ⟨fun i hi => ?_, step_follows hfollows hnew hstep⟩
      rw [outcomes_concat_other, hnew i (le_trans (calls_length_le hstep) hi)]
      intro error hout
      obtain ⟨_, hawaiting⟩ := awaiting_of_outcome hout hstep
      obtain ⟨call, hcall, _⟩ := awaiting_eq_some.mp hawaiting
      have hmade := (List.getElem?_eq_some_iff.mp hcall).1
      have hkept := calls_length_le hstep
      omega
  exact hboth.2

/-- What a call that follows its outcomes has told its completion. -/
theorem Call.Follows.answer {call : Call} {os : List (Option SwiftError)} (h : call.Follows os) :
    (call.awaiting.isSome → call.completions = []) ∧
    (call.awaiting = none → ∃ error, call.completions = [error] ∧ error = Chain.firstFailure os ∧
      (error = none ↔ os.length = 4 ∧ ∀ o ∈ os, o = none)) := by
  cases hawaiting : call.awaiting with
  | some request =>
    simp only [Call.Follows, hawaiting] at h
    exact ⟨fun _ => h.2, fun hnone => by cases hnone⟩
  | none =>
    simp only [Call.Follows, hawaiting] at h
    obtain ⟨hanswers, hone⟩ := h
    refine ⟨fun hsome => by simp at hsome, fun _ => ?_⟩
    obtain ⟨error, herror⟩ := List.length_eq_one_iff.mp hone
    refine ⟨error, herror, ?_, ?_⟩
    · cases error with
      | some e => exact (Chain.answers_eq_failure.mp (hanswers.symm.trans herror)).symm
      | none =>
        have hall := (Chain.answers_eq_success.mp (hanswers.symm.trans herror)).2
        rw [eq_comm, Chain.firstFailure, List.findSome?_eq_none_iff]
        exact fun o ho => hall o ho
    · rw [← Chain.answers_eq_success, ← hanswers, herror]
      simp

/-- **The register form.** In every reachable state the button is enabled exactly while the three texts are
filled; every press calls `createUser` with the email and the password on the screen; and every call has told
its completion nothing while a callback is awaited and, once its chain has ended, exactly one answer: the
error of the first callback that failed, or success when all four succeeded. -/
theorem register_form_gates_and_answers
    (hrun : EventRun.run step (opened accounts currentUser users) es = some w) :
    (w.screen.ui.isEnabled = true ↔ w.screen.ui.textFieldForEmail ≠ "" ∧
      w.screen.ui.textFieldForNameandSurname ≠ "" ∧ w.screen.ui.textFieldForPassword ≠ "") ∧
    (∀ w', step w .registerButtonPressed = some w' → ∃ call, w'.calls = w.calls ++ [call] ∧
      call.issued = [.createUser w.screen.ui.textFieldForEmail w.screen.ui.textFieldForPassword]) ∧
    ∀ i call, w.calls[i]? = some call →
      (call.awaiting.isSome → call.completions = []) ∧
      (call.awaiting = none → ∃ error, call.completions = [error] ∧
        error = Chain.firstFailure (outcomes i es) ∧
        (error = none ↔ (outcomes i es).length = 4 ∧ ∀ o ∈ outcomes i es, o = none)) := by
  have hsynced := run_synced hrun
  refine ⟨hsynced.isEnabled_iff, fun w' hstep => ⟨_, press_creates hsynced hstep, rfl⟩, ?_⟩
  exact fun i call hcall => (run_follows hrun i call hcall).answer

end runs

/-- A registration that goes through: the form is filled, Register is pressed and all four callbacks
succeed. -/
def successfulRegistration : List Event :=
  [.editingChanged .email "a@b.c", .editingChanged .nameSurname "Ada", .editingChanged .password "secret",
    .registerButtonPressed, .createUserCallback 0 (.ok "uid0"), .putDataCallback 0 none,
    .downloadURLCallback 0 (.ok "https://host/image"), .setDataCallback 0 none]

/-- The same form, whose first upload fails and whose second registration, with another email, goes through. -/
def retriedRegistration : List Event :=
  [.editingChanged .email "a@b.c", .editingChanged .nameSurname "Ada", .editingChanged .password "secret",
    .registerButtonPressed, .createUserCallback 0 (.ok "uid0"), .putDataCallback 0 (some ⟨"offline"⟩),
    .editingChanged .email "b@b.c", .registerButtonPressed, .createUserCallback 1 (.ok "uid1"),
    .putDataCallback 1 none, .downloadURLCallback 1 (.ok "https://host/image"), .setDataCallback 1 none]

theorem retriedRegistration_answers : ∃ w failed succeeded,
    EventRun.run step (opened [] none fun _ => none) retriedRegistration = some w ∧ w.screen.ui.isEnabled = true ∧
      w.calls[0]? = some failed ∧ failed.completions = [some ⟨"offline"⟩] ∧
      w.calls[1]? = some succeeded ∧ succeeded.completions = [none] ∧
      outcomes 1 retriedRegistration = [none, none, none, none] := by
  have hrun : EventRun.run step (opened [] none fun _ => none) retriedRegistration = some _ := rfl
  obtain ⟨henabled, _, hanswer⟩ := register_form_gates_and_answers hrun
  obtain ⟨error, hfailed, hfirst, _⟩ := (hanswer 0 _ rfl).2 rfl
  obtain ⟨none', hsucceeded, _, hall⟩ := (hanswer 1 _ rfl).2 rfl
  refine ⟨_, _, _, hrun, henabled.mpr (by decide), rfl, ?_, rfl, ?_, rfl⟩
  · rw [hfailed, hfirst]
    rfl
  · rw [hsucceeded, hall.mpr (by decide)]

end CloneProjects.Tinder.Register
