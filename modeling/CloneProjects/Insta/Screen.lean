import CloneProjects.Base.CallTable
import CloneProjects.Base.Run
import CloneProjects.Firebase
import Mathlib.Logic.Function.Basic

/-!
# The InstaClone registration screen

`ViewController` and the registrations its button starts, as a state machine over Firebase's stores. A
registration walks through `createUser`, `putData`, `downloadURL` and `setData`; its closures hold the texts of
the press, its HUD and, once there is one, the uid of its account. Any number may be under way at once.
-/

namespace CloneProjects.Insta

/-- The data model a stored user is read into. -/
structure User where
  userID : String
  userName : String
  profileImageURL : String
  deriving DecidableEq

/-- `User.init(userData:)`. -/
def User.init (userData : Infos) : User where
  userID := (userData.string "UserID").getD ""
  userName := (userData.string "UserName").getD ""
  profileImageURL := (userData.string "ProfileImageURL").getD ""

/-- A Foundation URL, which no empty string makes. -/
structure URL where
  absoluteString : String
  nonempty : absoluteString ≠ ""

inductive UIColor
  | lightGray
  | systemBlue
  | darkGray
  | black
  | clear
  deriving DecidableEq

structure ViewController where
  emailTextField : String
  userNameTextField : String
  passwordTextField : String
  /-- `registerButton.isEnabled`. -/
  isEnabled : Bool
  /-- `registerButton.backgroundColor`. -/
  backgroundColor : UIColor
  /-- The image of `addPhotoButton`, and its layer's border. -/
  addPhotoButton : Option UIImage
  borderColor : UIColor
  borderWidth : ℕ

structure Account where
  uid : String
  email : String
  deriving DecidableEq

/-- What a registration has asked of Firebase. -/
inductive Request
  | createUser (withEmail password : String)
  | putData (imageData : Data)
  | downloadURL
  | setData (document : String) (willBeAddedData : Infos)

inductive HudState
  | shown
  /-- `dismiss(afterDelay: 1.5, animated: true)` was called. -/
  | dismissing
  | dismissed
  deriving DecidableEq

structure Hud where
  text : String
  state : HudState

/-- One press of the register button. -/
structure Call where
  emailAdress : String
  userName : String
  password : String
  hud : Hud
  registeredUserID : Option String
  /-- The request whose callback has not fired. -/
  awaiting : Option Request
  /-- The requests made so far. -/
  issued : List Request
  /-- Whether the closures have run `resetAppearance`. -/
  formReset : Bool

structure World where
  screen : ViewController
  accounts : List Account
  users : String → Option Infos
  calls : List Call

inductive Field
  | email
  | userName
  | password
  deriving DecidableEq

inductive Event
  | editingChanged (field : Field) (text : String)
  | didFinishPicking (selectedImage : Option UIImage)
  | registerButtonClicked
  | createUserCallback (call : ℕ) (result : Except SwiftError String)
  | putDataCallback (call : ℕ) (error : Option SwiftError)
  | downloadURLCallback (call : ℕ) (result : Except SwiftError URL)
  | setDataCallback (call : ℕ) (error : Option SwiftError)
  /-- The 1.5 seconds of a HUD are over. -/
  | hudDelay (call : ℕ)

/-! ### The screen's functions -/

def ViewController.isTextFieldsValidate (screen : ViewController) : Bool :=
  decide (0 < screen.emailTextField.length) && decide (0 < screen.userNameTextField.length) &&
    decide (0 < screen.passwordTextField.length)

def ViewController.textFieldControl (screen : ViewController) : ViewController :=
  if screen.isTextFieldsValidate then { screen with isEnabled := true, backgroundColor := .systemBlue }
  else { screen with isEnabled := false, backgroundColor := .lightGray }

/-- The user edits a text field, which tells `textFieldControl`. -/
def ViewController.editingChanged (screen : ViewController) (text : String) : Field → ViewController
  | .email => { screen with emailTextField := text }.textFieldControl
  | .userName => { screen with userNameTextField := text }.textFieldControl
  | .password => { screen with passwordTextField := text }.textFieldControl

/-- `imagePickerController(_:didFinishPickingMediaWithInfo:)`. -/
def ViewController.didFinishPicking (screen : ViewController) (selectedImage : Option UIImage) : ViewController :=
  { screen with addPhotoButton := selectedImage, borderColor := .darkGray, borderWidth := 3 }

/-- The bytes `putData` is given: those of the picture on the button by then, or none. -/
def ViewController.imageData (screen : ViewController) : Data := (screen.addPhotoButton.bind (·.jpegData)).getD []

/-- `url?.absoluteString ?? ""`. -/
def absoluteString : Except SwiftError URL → String
  | .ok url => url.absoluteString
  | .error _ => ""

/-- The dictionary the last callback but one writes. -/
def willBeAddedData (userName registeredUserID profileImageURL : String) : Infos := dictionary [
  ("UserName", .string userName),
  ("UserID", .string registeredUserID),
  ("ProfileImageURL", .string profileImageURL)]

/-! ### The callbacks, on the call they belong to -/

def Call.issue (request : Request) (call : Call) : Call :=
  { call with awaiting := some request, issued := call.issued ++ [request] }

/-- `createUser` failed: the HUD shows the error for a while. -/
def Call.refused (error : SwiftError) (call : Call) : Call :=
  { call with awaiting := none, hud := ⟨error.localizedDescription, .dismissing⟩ }

def Call.accountCreated (uid : String) (imageData : Data) (call : Call) : Call :=
  { call with registeredUserID := some uid }.issue (.putData imageData)

/-- A branch that prints, and nothing more: the HUD stays as it is. -/
def Call.ended (call : Call) : Call := { call with awaiting := none }

/-- The callback of `downloadURL`: an error is printed, and the code carries on. -/
def Call.located (result : Except SwiftError URL) (call : Call) : Call :=
  let registeredUserID := call.registeredUserID.getD ""
  let call := call.issue
    (.setData registeredUserID (willBeAddedData call.userName registeredUserID (absoluteString result)))
  { call with hud := { call.hud with state := .dismissed }, formReset := true }

def Call.hudGone (call : Call) : Call := { call with hud := { call.hud with state := .dismissed } }

/-- `registerButtonClicked`, up to `createUser`; the texts of a `UITextField` are never nil. -/
def World.registerButtonClicked (w : World) : World :=
  let emailAdress := w.screen.emailTextField
  let userName := w.screen.userNameTextField
  let password := w.screen.passwordTextField
  { w with calls := w.calls ++ [Call.issue (.createUser emailAdress password)
      ⟨emailAdress, userName, password, ⟨"Registering...", .shown⟩, none, none, [], false⟩] }

/-- Firebase makes an account for a uid and an email that have none. -/
def World.CanCreate (w : World) (uid email : String) : Prop :=
  (∀ account ∈ w.accounts, account.uid ≠ uid ∧ account.email ≠ email) ∧ (w.users uid).isNone

instance (w : World) (uid email : String) : Decidable (w.CanCreate uid email) :=
  inferInstanceAs (Decidable (_ ∧ _))

/-- The request of a call whose callback has not fired. -/
def World.awaiting (w : World) (i : ℕ) : Option Request := (w.calls[i]?).bind (·.awaiting)

section step
variable (addphotobuttonimage : UIImage)

/-- The screen after `viewDidLoad`, with the asset on the photo button. -/
def viewDidLoad : ViewController := ⟨"", "", "", false, .lightGray, some addphotobuttonimage, .black, 0⟩

/-- The screen opened on a state of Firebase. -/
def opened (accounts : List Account) (users : String → Option Infos) : World :=
  ⟨viewDidLoad addphotobuttonimage, accounts, users, []⟩

def ViewController.resetAppearance (screen : ViewController) : ViewController :=
  { screen with
    addPhotoButton := some addphotobuttonimage
    borderColor := .clear
    borderWidth := 0
    emailTextField := ""
    userNameTextField := ""
    passwordTextField := "" }

def step (w : World) : Event → Option World
  | .editingChanged field text => some { w with screen := w.screen.editingChanged text field }
  | .didFinishPicking selectedImage => some { w with screen := w.screen.didFinishPicking selectedImage }
  | .registerButtonClicked => if w.screen.isEnabled then some w.registerButtonClicked else none
  | .createUserCallback i result =>
    match w.awaiting i with
    | some (.createUser email _) =>
      match result with
      | .error error => some { w with calls := w.calls.modify i (Call.refused error) }
      | .ok uid =>
        if w.CanCreate uid email then some { w with
          accounts := w.accounts ++ [⟨uid, email⟩]
          calls := w.calls.modify i (Call.accountCreated uid w.screen.imageData) }
        else none
    | _ => none
  | .putDataCallback i error =>
    match w.awaiting i with
    | some (.putData _) =>
      match error with
      | some _ => some { w with calls := w.calls.modify i Call.ended }
      | none => some { w with calls := w.calls.modify i (Call.issue .downloadURL) }
    | _ => none
  | .downloadURLCallback i result =>
    match w.awaiting i with
    | some .downloadURL => some { w with
        calls := w.calls.modify i (Call.located result)
        screen := w.screen.resetAppearance addphotobuttonimage }
    | _ => none
  | .setDataCallback i error =>
    match w.awaiting i with
    | some (.setData document willBeAddedData) =>
      match error with
      | some _ => some { w with calls := w.calls.modify i Call.ended }
      | none => some { w with
          users := Function.update w.users document (some willBeAddedData)
          calls := w.calls.modify i Call.ended }
    | _ => none
  | .hudDelay i =>
    if (w.calls[i]?).map (·.hud.state) = some .dismissing then
      some { w with calls := w.calls.modify i Call.hudGone }
    else none

end step

/-! ### What a step can do -/

/-- The call an event answers. -/
def Event.call : Event → Option ℕ
  | .createUserCallback i _ | .putDataCallback i _ | .downloadURLCallback i _ | .setDataCallback i _ => some i
  | _ => none

/-- The event brings an error. -/
def Event.failed : Event → Bool
  | .createUserCallback _ (.error _) | .putDataCallback _ (some _) | .downloadURLCallback _ (.error _)
  | .setDataCallback _ (some _) => true
  | _ => false

/-- The eleven ways a step can go. -/
inductive Effect (addphotobuttonimage : UIImage) (w : World) : Event → World → Prop
  | edited {field : Field} {text : String} : Effect addphotobuttonimage w (.editingChanged field text)
      { w with screen := w.screen.editingChanged text field }
  | picked {selectedImage : Option UIImage} : Effect addphotobuttonimage w (.didFinishPicking selectedImage)
      { w with screen := w.screen.didFinishPicking selectedImage }
  | pressed (henabled : w.screen.isEnabled = true) :
    Effect addphotobuttonimage w .registerButtonClicked w.registerButtonClicked
  | refused {i : ℕ} {error : SwiftError} {email password : String}
    (hawaiting : w.awaiting i = some (.createUser email password)) :
    Effect addphotobuttonimage w (.createUserCallback i (.error error))
      { w with calls := w.calls.modify i (Call.refused error) }
  | accountCreated {i : ℕ} {uid email password : String}
    (hawaiting : w.awaiting i = some (.createUser email password)) (hcan : w.CanCreate uid email) :
    Effect addphotobuttonimage w (.createUserCallback i (.ok uid)) { w with
      accounts := w.accounts ++ [⟨uid, email⟩]
      calls := w.calls.modify i (Call.accountCreated uid w.screen.imageData) }
  | uploadFailed {i : ℕ} {error : SwiftError} {imageData : Data}
    (hawaiting : w.awaiting i = some (.putData imageData)) :
    Effect addphotobuttonimage w (.putDataCallback i (some error)) { w with calls := w.calls.modify i Call.ended }
  | imageSaved {i : ℕ} {imageData : Data} (hawaiting : w.awaiting i = some (.putData imageData)) :
    Effect addphotobuttonimage w (.putDataCallback i none)
      { w with calls := w.calls.modify i (Call.issue .downloadURL) }
  | located {i : ℕ} {result : Except SwiftError URL} (hawaiting : w.awaiting i = some .downloadURL) :
    Effect addphotobuttonimage w (.downloadURLCallback i result) { w with
      calls := w.calls.modify i (Call.located result)
      screen := w.screen.resetAppearance addphotobuttonimage }
  | saveFailed {i : ℕ} {error : SwiftError} {document : String} {willBeAddedData : Infos}
    (hawaiting : w.awaiting i = some (.setData document willBeAddedData)) :
    Effect addphotobuttonimage w (.setDataCallback i (some error)) { w with calls := w.calls.modify i Call.ended }
  | saved {i : ℕ} {document : String} {willBeAddedData : Infos}
    (hawaiting : w.awaiting i = some (.setData document willBeAddedData)) :
    Effect addphotobuttonimage w (.setDataCallback i none) { w with
      users := Function.update w.users document (some willBeAddedData)
      calls := w.calls.modify i Call.ended }
  | hudGone {i : ℕ} {call : Call} (hcall : w.calls[i]? = some call) (hdismissing : call.hud.state = .dismissing) :
    Effect addphotobuttonimage w (.hudDelay i) { w with calls := w.calls.modify i Call.hudGone }

section
variable {addphotobuttonimage : UIImage} {w w' : World} {e : Event} {i : ℕ}

theorem awaiting_eq_some {request : Request} : w.awaiting i = some request ↔
    ∃ call, w.calls[i]? = some call ∧ call.awaiting = some request := by
  rw [World.awaiting, Option.bind_eq_some_iff]

/-- The entry of a call that waits for a request. -/
theorem awaiting_of_entry {request : Request} {call : Call} (hawaiting : w.awaiting i = some request)
    (hcall : w.calls[i]? = some call) : call.awaiting = some request := CallTable.of_bind_eq_some hawaiting hcall

theorem step_effect (h : step addphotobuttonimage w e = some w') : Effect addphotobuttonimage w e w' := by
  cases e with
  | editingChanged field text =>
    obtain rfl : _ = w' := Option.some.inj h
    exact .edited
  | didFinishPicking selectedImage =>
    obtain rfl : _ = w' := Option.some.inj h
    exact .picked
  | registerButtonClicked =>
    simp only [step] at h
    split at h
    · rename_i henabled
      obtain rfl : _ = w' := Option.some.inj h
      exact .pressed henabled
    · cases h
  | createUserCallback i result =>
    simp only [step] at h
    split at h
    · rename_i email password hawaiting
      cases result with
      | error error =>
        obtain rfl : _ = w' := Option.some.inj h
        exact .refused hawaiting
      | ok uid =>
        simp only at h
        split at h
        · rename_i hcan
          obtain rfl : _ = w' := Option.some.inj h
          exact .accountCreated hawaiting hcan
        · cases h
    · cases h
  | putDataCallback i error =>
    simp only [step] at h
    split at h
    · rename_i imageData hawaiting
      cases error with
      | some error =>
        obtain rfl : _ = w' := Option.some.inj h
        exact .uploadFailed hawaiting
      | none =>
        obtain rfl : _ = w' := Option.some.inj h
        exact .imageSaved hawaiting
    · cases h
  | downloadURLCallback i result =>
    simp only [step] at h
    split at h
    · rename_i hawaiting
      obtain rfl : _ = w' := Option.some.inj h
      exact .located hawaiting
    · cases h
  | setDataCallback i error =>
    simp only [step] at h
    split at h
    · rename_i document willBeAddedData hawaiting
      cases error with
      | some error =>
        obtain rfl : _ = w' := Option.some.inj h
        exact .saveFailed hawaiting
      | none =>
        obtain rfl : _ = w' := Option.some.inj h
        exact .saved hawaiting
    · cases h
  | hudDelay i =>
    simp only [step] at h
    split at h
    · rename_i hstate
      obtain ⟨call, hcall, hdismissing⟩ := Option.map_eq_some_iff.mp hstate
      obtain rfl : _ = w' := Option.some.inj h
      exact .hudGone hcall hdismissing
    · cases h

/-- Calls are never dropped. -/
theorem calls_length_le (hstep : step addphotobuttonimage w e = some w') : w.calls.length ≤ w'.calls.length := by
  cases step_effect hstep <;> simp [World.registerButtonClicked]

end

end CloneProjects.Insta
