import CloneProjects.Base.CallTable
import CloneProjects.Base.Chain
import CloneProjects.Base.Run
import CloneProjects.Tinder.Register.ViewModel
import Mathlib.Logic.Function.Basic

/-!
# The Register screen

`RegisterViewController` and the calls of `userRegister` its button makes, as a state machine over Firebase's
three stores. Each call keeps the copy of the view model its closures captured and walks through
`createUser`, `putData`, `downloadURL` and `setData`; any number of calls may be under way at once.
-/

namespace CloneProjects.Tinder.Register

/-- The widgets the view model's observers and the completion act on. -/
structure RegisterUI where
  textFieldForEmail : String
  textFieldForNameandSurname : String
  textFieldForPassword : String
  /-- `registerButton.isEnabled`. -/
  isEnabled : Bool
  buttonSelectPhoto : Option UIImage
  registerHud : Bool
  /-- The errors shown by `errorInfoJGHud`. -/
  errorHuds : List SwiftError

structure RegisterViewController where
  ui : RegisterUI
  registerViewModel : RegisterViewModel
  bindableImage : Bindable UIImage RegisterUI
  bindableValidOfRegisterDatas : Bindable Bool RegisterUI
  bindableRegistering : Bindable Bool RegisterUI

structure Account where
  uid : String
  email : String
  deriving DecidableEq

/-- What a call has asked of Firebase. -/
inductive Request
  | createUser (email password : String)
  | putData (imageData : Data)
  | downloadURL
  | setData (userID : String) (dataToBeAdded : Infos)

/-- One call of `userRegister` that passed its guard. -/
structure Call where
  /-- The copy of the struct in the closures. -/
  captured : RegisterViewModel
  /-- The uid its `createUser` brought; the code drops it. -/
  createdUid : Option String
  /-- The request whose callback has not fired. -/
  awaiting : Option Request
  /-- The requests made so far. -/
  issued : List Request
  /-- What the completion closure was called with. -/
  completions : List (Option SwiftError)

structure World where
  screen : RegisterViewController
  accounts : List Account
  /-- `Auth.auth().currentUser?.uid`. -/
  currentUser : Option String
  users : String → Option Infos
  calls : List Call

inductive Field
  | email
  | nameSurname
  | password
  deriving DecidableEq

inductive Event
  | editingChanged (field : Field) (text : String)
  | didFinishPicking (selectedImage : Option UIImage)
  | registerButtonPressed
  | registerHudDelay
  | createUserCallback (call : ℕ) (result : Except SwiftError String)
  | putDataCallback (call : ℕ) (error : Option SwiftError)
  | downloadURLCallback (call : ℕ) (result : Except SwiftError String)
  | setDataCallback (call : ℕ) (error : Option SwiftError)

/-! ### The observers of `registerViewControllerObserver` -/

def validObserver (valid : Option Bool) (ui : RegisterUI) : RegisterUI :=
  match valid with
  | none => ui
  | some valid => { ui with isEnabled := valid }

def imageObserver (imgProfile : Option UIImage) (ui : RegisterUI) : RegisterUI :=
  { ui with buttonSelectPhoto := imgProfile }

def registeringObserver (registering : Option Bool) (ui : RegisterUI) : RegisterUI :=
  if registering = some true then { ui with registerHud := true } else { ui with registerHud := false }

/-- The controller after `viewDidLoad`. -/
def viewDidLoad : RegisterViewController where
  ui := ⟨"", "", "", false, none, false, []⟩
  registerViewModel := .fresh
  bindableImage := Bindable.fresh.setValue imageObserver
  bindableValidOfRegisterDatas := Bindable.fresh.setValue validObserver
  bindableRegistering := Bindable.fresh.setValue registeringObserver

/-- The screen opened on a state of Firebase. -/
def opened (accounts : List Account) (currentUser : Option String) (users : String → Option Infos) : World :=
  ⟨viewDidLoad, accounts, currentUser, users, []⟩

/-! ### The controller's and the view model's functions -/

/-- An assignment to a text of the view model, and its observer `controlOfValidData`. -/
def RegisterViewController.setViewModel (screen : RegisterViewController) (viewModel : RegisterViewModel) :
    RegisterViewController :=
  let (bindable, ui) := screen.bindableValidOfRegisterDatas.assign (some viewModel.valid) screen.ui
  { screen with registerViewModel := viewModel, bindableValidOfRegisterDatas := bindable, ui := ui }

/-- The text field takes the text and tells `catchTheTextFieldChange`. -/
def RegisterViewController.catchTheTextFieldChange (screen : RegisterViewController) (text : String) :
    Field → RegisterViewController
  | .email =>
    { screen with ui := { screen.ui with textFieldForEmail := text } }.setViewModel
      { screen.registerViewModel with emailAdress := some text }
  | .password =>
    { screen with ui := { screen.ui with textFieldForPassword := text } }.setViewModel
      { screen.registerViewModel with password := some text }
  | .nameSurname =>
    { screen with ui := { screen.ui with textFieldForNameandSurname := text } }.setViewModel
      { screen.registerViewModel with nameSurname := some text }

def RegisterViewController.setRegistering (screen : RegisterViewController) (registering : Bool) :
    RegisterViewController :=
  let (bindable, ui) := screen.bindableRegistering.assign (some registering) screen.ui
  { screen with bindableRegistering := bindable, ui := ui }

def RegisterViewController.setImage (screen : RegisterViewController) (selectedImage : Option UIImage) :
    RegisterViewController :=
  let (bindable, ui) := screen.bindableImage.assign selectedImage screen.ui
  { screen with bindableImage := bindable, ui := ui }

/-- The completion closure of `registerButtonPressed`. -/
def RegisterViewController.registered (screen : RegisterViewController) (error : Option SwiftError) :
    RegisterViewController :=
  match error with
  | some error => { screen with ui := { screen.ui with errorHuds := screen.ui.errorHuds ++ [error] } }
  | none => screen

def Call.issue (request : Request) (call : Call) : Call :=
  { call with awaiting := some request, issued := call.issued ++ [request] }

def Call.complete (error : Option SwiftError) (call : Call) : Call :=
  { call with awaiting := none, completions := call.completions ++ [error] }

/-- The chain of a call ends with its completion. -/
def World.complete (w : World) (i : ℕ) (error : Option SwiftError) : World :=
  { w with calls := w.calls.modify i (Call.complete error), screen := w.screen.registered error }

/-- `userRegister`. -/
def World.userRegister (w : World) : World :=
  match w.screen.registerViewModel.emailAdress, w.screen.registerViewModel.password with
  | some emailAdress, some password => { w with
      screen := w.screen.setRegistering true
      calls := w.calls ++ [Call.issue (.createUser emailAdress password)
        ⟨w.screen.registerViewModel, none, none, [], []⟩] }
  | _, _ => w

/-- The first half of `imageSaveToFirebase`: the bytes of the picture selected by now. -/
def World.imageData (w : World) : Data := (w.screen.bindableImage.value.bind (·.jpegData)).getD []

/-- Firebase makes an account for a uid and an email that have none, and signs it in. -/
def World.CanCreate (w : World) (uid email : String) : Prop :=
  (∀ account ∈ w.accounts, account.uid ≠ uid ∧ account.email ≠ email) ∧ (w.users uid).isNone

instance (w : World) (uid email : String) : Decidable (w.CanCreate uid email) :=
  inferInstanceAs (Decidable (_ ∧ _))

/-- `createUser` succeeded: the new account is signed in and `imageSaveToFirebase` starts the upload. -/
def World.accountCreated (w : World) (i : ℕ) (uid email : String) : World :=
  { w with
    accounts := w.accounts ++ [⟨uid, email⟩]
    currentUser := some uid
    calls := w.calls.modify i fun call => { call with createdUid := some uid }.issue (.putData w.imageData) }

/-- `downloadURL` succeeded: the busy flag is cleared and `userInfoSaveToFirebase` writes the profile of
whoever is signed in now. -/
def World.userInfoSaveToFirebase (w : World) (i : ℕ) (imageURL : String) : World :=
  let userID := w.currentUser.getD ""
  { w with
    screen := w.screen.setRegistering false
    calls := w.calls.modify i fun call =>
      call.issue (.setData userID (call.captured.dataToBeAdded imageURL userID)) }

/-- `setData` succeeded: the document is replaced and the registration is reported. -/
def World.userInfoSaved (w : World) (i : ℕ) (userID : String) (dataToBeAdded : Infos) : World :=
  { w with users := Function.update w.users userID (some dataToBeAdded) }.complete i none

/-- The request of a call whose callback has not fired. -/
def World.awaiting (w : World) (i : ℕ) : Option Request := (w.calls[i]?).bind (·.awaiting)

def step (w : World) : Event → Option World
  | .editingChanged field text => some { w with screen := w.screen.catchTheTextFieldChange text field }
  | .didFinishPicking selectedImage => some { w with screen := w.screen.setImage selectedImage }
  | .registerButtonPressed => if w.screen.ui.isEnabled then some w.userRegister else none
  | .registerHudDelay =>
    some { w with screen := { w.screen with ui := { w.screen.ui with registerHud := false } } }
  | .createUserCallback i result =>
    match w.awaiting i with
    | some (.createUser email _) =>
      match result with
      | .error error => some (w.complete i (some error))
      | .ok uid => if w.CanCreate uid email then some (w.accountCreated i uid email) else none
    | _ => none
  | .putDataCallback i error =>
    match w.awaiting i with
    | some (.putData _) =>
      match error with
      | some error => some (w.complete i (some error))
      | none => some { w with calls := w.calls.modify i (Call.issue .downloadURL) }
    | _ => none
  | .downloadURLCallback i result =>
    match w.awaiting i with
    | some .downloadURL =>
      match result with
      | .error error => some (w.complete i (some error))
      | .ok imageURL => some (w.userInfoSaveToFirebase i imageURL)
    | _ => none
  | .setDataCallback i error =>
    match w.awaiting i with
    | some (.setData userID dataToBeAdded) =>
      match error with
      | some error => some (w.complete i (some error))
      | none => some (w.userInfoSaved i userID dataToBeAdded)
    | _ => none

/-! ### What each event can do -/

variable {w w' : World} {i : ℕ}

theorem awaiting_eq_some {request : Request} : w.awaiting i = some request ↔
    ∃ call, w.calls[i]? = some call ∧ call.awaiting = some request := by
  rw [World.awaiting, Option.bind_eq_some_iff]

theorem step_editingChanged {field : Field} {text : String}
    (h : step w (.editingChanged field text) = some w') :
    w' = { w with screen := w.screen.catchTheTextFieldChange text field } := by
  simpa [step] using h.symm

theorem step_didFinishPicking {selectedImage : Option UIImage}
    (h : step w (.didFinishPicking selectedImage) = some w') :
    w' = { w with screen := w.screen.setImage selectedImage } := by
  simpa [step] using h.symm

theorem step_registerButtonPressed (h : step w .registerButtonPressed = some w') :
    w.screen.ui.isEnabled = true ∧ w' = w.userRegister := by
  simp only [step] at h
  split at h
  · rename_i henabled
    exact ⟨henabled, by simpa using h.symm⟩
  · cases h

theorem step_registerHudDelay (h : step w .registerHudDelay = some w') :
    w' = { w with screen := { w.screen with ui := { w.screen.ui with registerHud := false } } } := by
  simpa [step] using h.symm

theorem step_createUserCallback {result : Except SwiftError String}
    (h : step w (.createUserCallback i result) = some w') :
    ∃ email password, w.awaiting i = some (.createUser email password) ∧
      ((∃ error, result = .error error ∧ w' = w.complete i (some error)) ∨
        ∃ uid, result = .ok uid ∧ w.CanCreate uid email ∧ w' = w.accountCreated i uid email) := by
  simp only [step] at h
  split at h
  · rename_i email password hawaiting
    refine ⟨email, password, hawaiting, ?_⟩
    cases result with
    | error error => exact .inl ⟨error, rfl, by simpa using h.symm⟩
    | ok uid =>
      simp only at h
      split at h
      · rename_i hcan
        exact .inr ⟨uid, rfl, hcan, by simpa using h.symm⟩
      · cases h
  · cases h

theorem step_putDataCallback {error : Option SwiftError} (h : step w (.putDataCallback i error) = some w') :
    ∃ imageData, w.awaiting i = some (.putData imageData) ∧
      ((∃ e, error = some e ∧ w' = w.complete i (some e)) ∨
        error = none ∧ w' = { w with calls := w.calls.modify i (Call.issue .downloadURL) }) := by
  simp only [step] at h
  split at h
  · rename_i imageData hawaiting
    refine ⟨imageData, hawaiting, ?_⟩
    cases error with
    | some e => exact .inl ⟨e, rfl, by simpa using h.symm⟩
    | none => exact .inr ⟨rfl, by simpa using h.symm⟩
  · cases h

theorem step_downloadURLCallback {result : Except SwiftError String}
    (h : step w (.downloadURLCallback i result) = some w') :
    w.awaiting i = some .downloadURL ∧
      ((∃ error, result = .error error ∧ w' = w.complete i (some error)) ∨
        ∃ imageURL, result = .ok imageURL ∧ w' = w.userInfoSaveToFirebase i imageURL) := by
  simp only [step] at h
  split at h
  · rename_i hawaiting
    refine ⟨hawaiting, ?_⟩
    cases result with
    | error error => exact .inl ⟨error, rfl, by simpa using h.symm⟩
    | ok imageURL => exact .inr ⟨imageURL, rfl, by simpa using h.symm⟩
  · cases h

theorem step_setDataCallback {error : Option SwiftError} (h : step w (.setDataCallback i error) = some w') :
    ∃ userID dataToBeAdded, w.awaiting i = some (.setData userID dataToBeAdded) ∧
      ((∃ e, error = some e ∧ w' = w.complete i (some e)) ∨
        error = none ∧ w' = w.userInfoSaved i userID dataToBeAdded) := by
  simp only [step] at h
  split at h
  · rename_i userID dataToBeAdded hawaiting
    refine ⟨userID, dataToBeAdded, hawaiting, ?_⟩
    cases error with
    | some e => exact .inl ⟨e, rfl, by simpa using h.symm⟩
    | none => exact .inr ⟨rfl, by simpa using h.symm⟩
  · cases h

/-! ### The frame: what the parts of a step leave alone -/

@[simp] theorem complete_calls {error : Option SwiftError} :
    (w.complete i error).calls = w.calls.modify i (Call.complete error) := rfl

/-- A press that passes the guard appends its call and touches no store. -/
theorem userRegister_cases (w : World) :
    (∃ emailAdress password, w.screen.registerViewModel.emailAdress = some emailAdress ∧
      w.screen.registerViewModel.password = some password ∧
      w.userRegister = { w with
        screen := w.screen.setRegistering true
        calls := w.calls ++ [Call.issue (.createUser emailAdress password)
          ⟨w.screen.registerViewModel, none, none, [], []⟩] }) ∨
    ((w.screen.registerViewModel.emailAdress = none ∨ w.screen.registerViewModel.password = none) ∧
      w.userRegister = w) := by
  unfold World.userRegister
  split
  · rename_i emailAdress password hemail hpassword
    exact .inl ⟨emailAdress, password, hemail, hpassword, rfl⟩
  · rename_i hnone
    refine .inr ⟨?_, rfl⟩
    cases hemail : w.screen.registerViewModel.emailAdress with
    | none => exact .inl rfl
    | some emailAdress =>
      cases hpassword : w.screen.registerViewModel.password with
      | none => exact .inr rfl
      | some password => exact absurd hpassword (hnone emailAdress password hemail)

/-! ### What a step does to the calls and the stores -/

/-- The call an event answers, and the error it brings. -/
def Event.outcome : Event → Option (ℕ × Option SwiftError)
  | .createUserCallback i (.error error) => some (i, some error)
  | .createUserCallback i (.ok _) => some (i, none)
  | .putDataCallback i error => some (i, error)
  | .downloadURLCallback i (.error error) => some (i, some error)
  | .downloadURLCallback i (.ok _) => some (i, none)
  | .setDataCallback i error => some (i, error)
  | _ => none

/-- The seven ways a step can go: it touches the screen alone, starts a call, ends one with an error, or
takes one of the four successes further. -/
inductive Effect (w : World) : Event → World → Prop
  | screenOnly {e : Event} (screen : RegisterViewController) (hout : e.outcome = none) :
    Effect w e { w with screen := screen }
  | pressed (screen : RegisterViewController) {emailAdress password : String}
    (hemail : w.screen.registerViewModel.emailAdress = some emailAdress) :
    Effect w .registerButtonPressed { w with
      screen := screen
      calls := w.calls ++ [Call.issue (.createUser emailAdress password)
        ⟨w.screen.registerViewModel, none, none, [], []⟩] }
  | failed {e : Event} {i : ℕ} {request : Request} {error : SwiftError}
    (hawaiting : w.awaiting i = some request) (hout : e.outcome = some (i, some error)) :
    Effect w e (w.complete i (some error))
  | accountCreated {i : ℕ} {uid email password : String}
    (hawaiting : w.awaiting i = some (.createUser email password)) (hcan : w.CanCreate uid email) :
    Effect w (.createUserCallback i (.ok uid)) (w.accountCreated i uid email)
  | imageSaved {i : ℕ} {imageData : Data} (hawaiting : w.awaiting i = some (.putData imageData)) :
    Effect w (.putDataCallback i none) { w with calls := w.calls.modify i (Call.issue .downloadURL) }
  | located {i : ℕ} {imageURL : String} (hawaiting : w.awaiting i = some .downloadURL) :
    Effect w (.downloadURLCallback i (.ok imageURL)) (w.userInfoSaveToFirebase i imageURL)
  | userInfoSaved {i : ℕ} {userID : String} {dataToBeAdded : Infos}
    (hawaiting : w.awaiting i = some (.setData userID dataToBeAdded)) :
    Effect w (.setDataCallback i none) (w.userInfoSaved i userID dataToBeAdded)

theorem step_effect {e : Event} (hstep : step w e = some w') : Effect w e w' := by
  cases e with
  | editingChanged field text =>
    rw [step_editingChanged hstep]
    exact .screenOnly _ rfl
  | didFinishPicking selectedImage =>
    rw [step_didFinishPicking hstep]
    exact .screenOnly _ rfl
  | registerButtonPressed =>
    rw [(step_registerButtonPressed hstep).2]
    rcases userRegister_cases w with ⟨_, _, hemail, _, hpass⟩ | ⟨_, hguard⟩
    · rw [hpass]
      exact .pressed _ hemail
    · rw [hguard]
      exact .screenOnly w.screen rfl
  | registerHudDelay =>
    rw [step_registerHudDelay hstep]
    exact .screenOnly _ rfl
  | createUserCallback i result =>
    obtain ⟨_, _, hawaiting, ⟨_, rfl, rfl⟩ | ⟨_, rfl, hcan, rfl⟩⟩ := step_createUserCallback hstep
    · exact .failed hawaiting rfl
    · exact .accountCreated hawaiting hcan
  | putDataCallback i error =>
    obtain ⟨_, hawaiting, ⟨_, rfl, rfl⟩ | ⟨rfl, rfl⟩⟩ := step_putDataCallback hstep
    · exact .failed hawaiting rfl
    · exact .imageSaved hawaiting
  | downloadURLCallback i result =>
    obtain ⟨hawaiting, ⟨_, rfl, rfl⟩ | ⟨_, rfl, rfl⟩⟩ := step_downloadURLCallback hstep
    · exact .failed hawaiting rfl
    · exact .located hawaiting
  | setDataCallback i error =>
    obtain ⟨_, _, hawaiting, ⟨_, rfl, rfl⟩ | ⟨rfl, rfl⟩⟩ := step_setDataCallback hstep
    · exact .failed hawaiting rfl
    · exact .userInfoSaved hawaiting

/-- The call a callback is for waits for a request. -/
theorem awaiting_of_outcome {e : Event} {error : Option SwiftError} (hout : e.outcome = some (i, error))
    (hstep : step w e = some w') : ∃ request, w.awaiting i = some request := by
  cases step_effect hstep with
  | screenOnly _ hnone =>
    rw [hnone] at hout
    cases hout
  | pressed _ _ => cases hout
  | failed hawaiting hout' =>
    rw [hout'] at hout
    cases hout
    exact ⟨_, hawaiting⟩
  | accountCreated hawaiting _ =>
    cases hout
    exact ⟨_, hawaiting⟩
  | imageSaved hawaiting =>
    cases hout
    exact ⟨_, hawaiting⟩
  | located hawaiting =>
    cases hout
    exact ⟨_, hawaiting⟩
  | userInfoSaved hawaiting =>
    cases hout
    exact ⟨_, hawaiting⟩

/-- Every awaited callback can fire, with either outcome; a success of `createUser` as far as Firebase can make the
account. -/
theorem callback_fires {request : Request} (hawaiting : w.awaiting i = some request) :
    match request with
    | .createUser email _ => (∀ error, (step w (.createUserCallback i (.error error))).isSome) ∧
        ∀ uid, w.CanCreate uid email → (step w (.createUserCallback i (.ok uid))).isSome
    | .putData _ => ∀ error, (step w (.putDataCallback i error)).isSome
    | .downloadURL => ∀ result, (step w (.downloadURLCallback i result)).isSome
    | .setData _ _ => ∀ error, (step w (.setDataCallback i error)).isSome := by
  cases request with
  | createUser email password =>
    refine ⟨fun error => by simp [step, hawaiting], fun uid hcan => ?_⟩
    simp [step, hawaiting, if_pos hcan]
  | putData imageData =>
    intro error
    cases error <;> simp [step, hawaiting]
  | downloadURL =>
    intro result
    cases result <;> simp [step, hawaiting]
  | setData userID dataToBeAdded =>
    intro error
    cases error <;> simp [step, hawaiting]

/-- The entry of a call that waits for a request. -/
theorem awaiting_of_entry {request : Request} {call : Call} (hawaiting : w.awaiting i = some request)
    (hcall : w.calls[i]? = some call) : call.awaiting = some request := CallTable.of_bind_eq_some hawaiting hcall

/-- Calls are never dropped. -/
theorem calls_length_le {e : Event} (hstep : step w e = some w') : w.calls.length ≤ w'.calls.length := by
  cases step_effect hstep with
  | screenOnly => exact le_rfl
  | pressed => simp
  | failed => simp
  | accountCreated => simp [World.accountCreated]
  | imageSaved => simp
  | located => simp [World.userInfoSaveToFirebase]
  | userInfoSaved => simp [World.userInfoSaved]

end CloneProjects.Tinder.Register
