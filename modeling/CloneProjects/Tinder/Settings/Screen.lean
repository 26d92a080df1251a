import CloneProjects.Base.Run
import CloneProjects.Base.CallTable
import CloneProjects.Tinder.User
import Mathlib.Algebra.Order.Ring.Rat
import Mathlib.Logic.Function.Basic

/-!
# The Settings screen

`SettingsViewController` as a state machine: its in-memory user, the cells on display, the photo buttons and
the photo uploads, next to the signed-in account, the stored `Users` documents and the Saves sent to
Firestore. An event is a callback, a table-view notification or something the user does, and `step` is what
the controller does with it.
-/

namespace CloneProjects.Tinder.Settings

/-! ### Photos -/

/-- The buttons `selectionArea1`, `selectionArea2` and `selectionArea3`. -/
inductive Slot
  | area1
  | area2
  | area3
  deriving DecidableEq

def Slot.imageURL (user : User) : Slot → Option String
  | .area1 => user.imageURL1
  | .area2 => user.imageURL2
  | .area3 => user.imageURL3

def Slot.setImageURL (user : User) (url : Option String) : Slot → User
  | .area1 => { user with imageURL1 := url }
  | .area2 => { user with imageURL2 := url }
  | .area3 => { user with imageURL3 := url }

/-- What a button shows: its title, the picture loaded from a stored URL, or the picture of a pick. -/
inductive ButtonImage
  | title
  | loaded (url : String)
  | picked (pick : ℕ)
  deriving DecidableEq

/-- How far the upload of a pick got. -/
inductive UploadStage
  | notStarted
  | putData (data : Data)
  | downloadURL
  | finished
  deriving DecidableEq

/-- One return of the image picker. -/
structure Pick where
  buttonSelectImage : Slot
  selectedImage : Option UIImage
  stage : UploadStage
  hudShown : Bool
  deriving DecidableEq

/-! ### Cells -/

/-- The rows with a text field: sections 1 to 4. -/
inductive TextRow
  | name
  | age
  | job
  | about
  deriving DecidableEq

/-- The actions a text field can send when its text is edited. -/
inductive Handler
  | catchTheNameTextFieldChange
  | catchTheAgeTextFieldChange
  | catchTheJobTextFieldChange
  deriving DecidableEq

structure SettingsViewCell where
  placeholder : String
  text : String
  editingChanged : Option Handler
  deriving DecidableEq

/-- A slider of the age cell. It clamps its value to `minimumValue` and `maximumValue`. -/
structure UISlider where
  value : ℚ
  inRange : 18 ≤ value ∧ value ≤ 99
  deriving DecidableEq

def UISlider.set (x : ℚ) : UISlider :=
  ⟨max 18 (min 99 x), le_max_left _ _, max_le (by decide) (min_le_left _ _)⟩

/-- `Int(_:)` of a floating-point value. -/
def truncate (x : ℚ) : ℤ := x.num.tdiv x.den

structure AgeRangeCell where
  minSlider : UISlider
  maxSlider : UISlider
  minLabel : String
  maxLabel : String
  deriving DecidableEq

/-! ### The screen and what surrounds it -/

/-- The user load of `viewDidLoad`: not issued without a signed-in user, waiting for `getDocument`, or
answered. -/
inductive Load
  | notIssued
  | getDocument (uid : String)
  | answered
  deriving DecidableEq

structure SettingsViewController where
  currentUser : Option User
  load : Load
  textCell : TextRow → Option SettingsViewCell
  ageRangeCell : Option AgeRangeCell
  buttonImage : Slot → ButtonImage
  /-- The pictures asked of the image manager and not delivered yet. -/
  pictureLoads : List (Slot × String)
  picks : List Pick

/-- One press of Save: the document and the data given to `setData`, if the guard let it through. -/
structure Save where
  request : Option (String × Infos)
  pending : Bool
  hudShown : Bool

structure World where
  /-- `Auth.auth().currentUser?.uid`. -/
  uid : Option String
  users : String → Option Infos
  screen : SettingsViewController
  saves : List Save
  /-- How often the delegate was told `settingsSaved`. -/
  settingsSaved : ℕ

/-- A fresh controller after `viewDidLoad`, whose `getByUserInfo` has asked for the user's document. -/
def viewDidLoad (uid : Option String) : SettingsViewController where
  currentUser := none
  load := match uid with
    | some uid => .getDocument uid
    | none => .notIssued
  textCell _ := none
  ageRangeCell := none
  buttonImage _ := .title
  pictureLoads := []
  picks := []

/-- The screen has just been opened. -/
def opened (uid : Option String) (users : String → Option Infos) : World where
  uid := uid
  users := users
  screen := viewDidLoad uid
  saves := []
  settingsSaved := 0

inductive Event
  /-- `getDocument` answers, with an error or with the document stored then. -/
  | loadCallback (error : Option SwiftError)
  /-- The image manager delivers the picture asked for a slot, or fails. -/
  | pictureLoaded (slot : Slot) (succeeded : Bool)
  | willDisplay (row : TextRow)
  | didEndDisplaying (row : TextRow)
  | willDisplayAgeRange
  | didEndDisplayingAgeRange
  | reloadData
  | editText (row : TextRow) (text : String)
  | moveMinSlider (x : ℚ)
  | moveMaxSlider (x : ℚ)
  | pick (slot : Slot) (selectedImage : Option UIImage)
  | putDataCallback (pick : ℕ) (error : Option SwiftError)
  | downloadURLCallback (pick : ℕ) (result : Except SwiftError String)
  | savePressed
  | saveCallback (save : ℕ) (error : Option SwiftError)
  | logoutPressed (succeeded : Bool)

/-! ### The controller's functions -/

/-- The dictionary `saveInfoButtonPressed` writes. -/
def datas (uid : String) (currentUser : Option User) : Infos := dictionary [
  ("UserID", .string uid),
  ("NameSurname", .string ((currentUser.bind (·.userName)).getD "No Name Surname")),
  ("ImageURL", .string ((currentUser.bind (·.imageURL1)).getD "")),
  ("ImageURL2", .string ((currentUser.bind (·.imageURL2)).getD "")),
  ("ImageURL3", .string ((currentUser.bind (·.imageURL3)).getD "")),
  ("Age", .integer ((currentUser.bind (·.age)).getD (-1))),
  ("Job", .string ((currentUser.bind (·.job)).getD "NULL")),
  ("MinimumAge", .integer ((currentUser.bind (·.searchMinAge)).getD (-1))),
  ("MaximumAge", .integer ((currentUser.bind (·.searchMaxAge)).getD (-1)))]

/-- The HUD is shown before the guard. -/
def saveInfoButtonPressed (w : World) : World :=
  match w.uid with
  | none => { w with saves := w.saves ++ [⟨none, false, true⟩] }
  | some uid => { w with saves := w.saves ++ [⟨some (uid, datas uid w.screen.currentUser), true, true⟩] }

def reloadData (screen : SettingsViewController) : SettingsViewController :=
  { screen with textCell := fun _ => none, ageRangeCell := none }

/-- The rows of text fields in `tableView(_:cellForRowAt:)`. -/
def cellForTextRow (currentUser : Option User) : TextRow → SettingsViewCell
  | .name =>
    { placeholder := "Please enter your first and last name."
      text := (currentUser.bind (·.userName)).getD ""
      editingChanged := some .catchTheNameTextFieldChange }
  | .age =>
    match currentUser.bind (·.age) with
    | some age =>
      { placeholder := "Please enter your age."
        text := toString age
        editingChanged := some .catchTheAgeTextFieldChange }
    | none => { placeholder := "Please enter your age.", text := "", editingChanged := none }
  | .job =>
    { placeholder := "Please enter your job."
      text := (currentUser.bind (·.job)).getD ""
      editingChanged := some .catchTheJobTextFieldChange }
  | .about =>
    { placeholder := "Please enter a brief information about you."
      text := ""
      editingChanged := none }

/-- Section 5 of `tableView(_:cellForRowAt:)`; both labels start with "Min". -/
def cellForAgeRange (currentUser : Option User) : AgeRangeCell :=
  let minAge := (currentUser.bind (·.searchMinAge)).getD 18
  let maxAge := (currentUser.bind (·.searchMaxAge)).getD 18
  { minLabel := s!"Min {minAge}"
    minSlider := UISlider.set minAge
    maxLabel := s!"Min {maxAge}"
    maxSlider := UISlider.set maxAge }

/-- The three text-field actions, on the loaded user. -/
def Handler.action (text : String) (user : User) : Handler → User
  | .catchTheNameTextFieldChange => { user with userName := some text }
  | .catchTheAgeTextFieldChange => { user with age := Numeral.parseInt text }
  | .catchTheJobTextFieldChange => { user with job := some text }

/-- An edit of the text in a displayed cell, which tells the cell's handler. -/
def editText (screen : SettingsViewController) (row : TextRow) (cell : SettingsViewCell) (text : String) :
    SettingsViewController :=
  { screen with
    textCell := Function.update screen.textCell row (some { cell with text := text })
    currentUser := match cell.editingChanged with
      | some handler => screen.currentUser.map fun user => handler.action text user
      | none => screen.currentUser }

/-- The two values `setMinMaxSlider` computes of the sliders: a maximum below the minimum is raised to it. -/
def AgeRangeCell.minValue (cell : AgeRangeCell) : ℤ := truncate cell.minSlider.value

def AgeRangeCell.maxValue (cell : AgeRangeCell) : ℤ := max cell.minValue (truncate cell.maxSlider.value)

/-- `setMinMaxSlider`, for the age cell that `cellForRow(at:)` returns. -/
def setMinMaxSlider (screen : SettingsViewController) (ageRangeCell : AgeRangeCell) : SettingsViewController :=
  { screen with
    ageRangeCell := some
      { ageRangeCell with
        maxSlider := UISlider.set ageRangeCell.maxValue
        minLabel := s!"Min {ageRangeCell.minValue}"
        maxLabel := s!"Max {ageRangeCell.maxValue}" }
    currentUser := screen.currentUser.map fun user =>
      { user with searchMinAge := some ageRangeCell.minValue, searchMaxAge := some ageRangeCell.maxValue } }

/-- `imagePickerController(_:didFinishPickingMediaWithInfo:)` up to `putData`. -/
def didFinishPicking (screen : SettingsViewController) (slot : Slot) (selectedImage : Option UIImage) :
    SettingsViewController :=
  { screen with
    buttonImage := Function.update screen.buttonImage slot
      (match selectedImage with
        | some _ => .picked screen.picks.length
        | none => .title)
    picks := screen.picks ++
      [match selectedImage.bind (·.jpegData) with
        | none => ⟨slot, selectedImage, .notStarted, false⟩
        | some data => ⟨slot, selectedImage, .putData data, true⟩] }

/-- The callback of `putData`. A failure leaves the HUD. -/
def Pick.putDataCallback (error : Option SwiftError) (pick : Pick) : Pick :=
  match error with
  | some _ => { pick with stage := .finished }
  | none => { pick with stage := .downloadURL }

/-- The callback of `setData`. -/
def Save.finished (save : Save) : Save := { save with pending := false, hudShown := false }

/-- The callback of `downloadURL`, on the loaded user. -/
def urlArrived (currentUser : Option User) (slot : Slot) : Except SwiftError String → Option User
  | .error _ => currentUser
  | .ok url => currentUser.map fun user => slot.setImageURL user (some url)

/-- What `getDocument` brings: the error, or the document stored now. -/
def World.getDocument (w : World) (uid : String) : Option SwiftError → Except SwiftError (Option Infos)
  | some error => .error error
  | none => .ok (w.users uid)

section step
variable (accepts : String → Bool)

/-- `loadProfilePictures`: the pictures it asks for, up to the first slot without a URL. -/
def loadProfilePictures (currentUser : Option User) : List (Slot × String) :=
  match (currentUser.bind (·.imageURL1)).filter accepts with
  | none => []
  | some url =>
    (.area1, url) :: match (currentUser.bind (·.imageURL2)).filter accepts with
      | none => []
      | some url2 =>
        (.area2, url2) :: match (currentUser.bind (·.imageURL3)).filter accepts with
          | none => []
          | some url3 => [(.area3, url3)]

/-- The completion of `getByUserInfo`. -/
def getByUserInfo (screen : SettingsViewController) (response : Except SwiftError (Option Infos)) :
    SettingsViewController :=
  match getByCurrentUser response with
  | .error _ => { screen with load := .answered }
  | .ok user =>
    reloadData
      { screen with
        load := .answered
        currentUser := some user
        pictureLoads := loadProfilePictures accepts (some user) }

def step (w : World) : Event → Option World
  | .loadCallback error =>
    match w.screen.load with
    | .getDocument uid => some { w with screen := getByUserInfo accepts w.screen (w.getDocument uid error) }
    | _ => none
  | .pictureLoaded slot succeeded =>
    match w.screen.pictureLoads.lookup slot with
    | some url => some { w with
        screen := { w.screen with
          pictureLoads := w.screen.pictureLoads.filter (·.1 ≠ slot)
          buttonImage := Function.update w.screen.buttonImage slot
            (if succeeded then .loaded url else .title) } }
    | none => none
  | .willDisplay row => some { w with
      screen := { w.screen with
        textCell := Function.update w.screen.textCell row (some (cellForTextRow w.screen.currentUser row)) } }
  | .didEndDisplaying row => some { w with
      screen := { w.screen with textCell := Function.update w.screen.textCell row none } }
  | .willDisplayAgeRange => some { w with
      screen := { w.screen with ageRangeCell := some (cellForAgeRange w.screen.currentUser) } }
  | .didEndDisplayingAgeRange => some { w with screen := { w.screen with ageRangeCell := none } }
  | .reloadData => some { w with screen := reloadData w.screen }
  | .editText row text =>
    match w.screen.textCell row with
    | some cell => some { w with screen := editText w.screen row cell text }
    | none => none
  | .moveMinSlider x =>
    match w.screen.ageRangeCell with
    | some cell => some { w with screen := setMinMaxSlider w.screen { cell with minSlider := UISlider.set x } }
    | none => none
  | .moveMaxSlider x =>
    match w.screen.ageRangeCell with
    | some cell => some { w with screen := setMinMaxSlider w.screen { cell with maxSlider := UISlider.set x } }
    | none => none
  | .pick slot selectedImage => some { w with screen := didFinishPicking w.screen slot selectedImage }
  | .putDataCallback k error =>
    match w.screen.picks[k]? with
    | some ⟨_, _, .putData _, _⟩ => some { w with
        screen := { w.screen with picks := w.screen.picks.modify k (Pick.putDataCallback error) } }
    | _ => none
  | .downloadURLCallback k result =>
    match w.screen.picks[k]? with
    | some ⟨slot, _, .downloadURL, _⟩ => some { w with
        screen := { w.screen with
          picks := w.screen.picks.modify k fun pick => { pick with stage := .finished, hudShown := false }
          currentUser := urlArrived w.screen.currentUser slot result } }
    | _ => none
  | .savePressed => some (saveInfoButtonPressed w)
  | .saveCallback i error =>
    match w.saves[i]? with
    | some ⟨some (uid, datas), true, _⟩ =>
      let saves := w.saves.modify i Save.finished
      match error with
      | some _ => some { w with saves := saves }
      | none => some { w with
          saves := saves
          users := Function.update w.users uid (some datas)
          settingsSaved := w.settingsSaved + 1 }
    | _ => none
  | .logoutPressed succeeded => some (if succeeded then { w with uid := none } else w)

/-! ### What each event can do -/

variable {accepts} {w w' : World}

theorem step_loadCallback {error : Option SwiftError} (h : step accepts w (.loadCallback error) = some w') :
    ∃ uid, w.screen.load = .getDocument uid ∧
      w' = { w with screen := getByUserInfo accepts w.screen (w.getDocument uid error) } := by
  simp only [step] at h
  split at h
  · rename_i uid hload
    exact ⟨uid, hload, by simpa using h.symm⟩
  · cases h

theorem step_pictureLoaded {slot : Slot} {succeeded : Bool}
    (h : step accepts w (.pictureLoaded slot succeeded) = some w') :
    ∃ url, w.screen.pictureLoads.lookup slot = some url ∧ w' = { w with
      screen := { w.screen with
        pictureLoads := w.screen.pictureLoads.filter (·.1 ≠ slot)
        buttonImage := Function.update w.screen.buttonImage slot
          (if succeeded then .loaded url else .title) } } := by
  simp only [step] at h
  split at h
  · rename_i url hurl
    exact ⟨url, hurl, by simpa using h.symm⟩
  · cases h

theorem step_editText {row : TextRow} {text : String} (h : step accepts w (.editText row text) = some w') :
    ∃ cell, w.screen.textCell row = some cell ∧
      w' = { w with screen := editText w.screen row cell text } := by
  simp only [step] at h
  split at h
  · rename_i cell hcell
    exact ⟨cell, hcell, by simpa using h.symm⟩
  · cases h

theorem step_moveMinSlider {x : ℚ} (h : step accepts w (.moveMinSlider x) = some w') :
    ∃ cell, w.screen.ageRangeCell = some cell ∧
      w' = { w with screen := setMinMaxSlider w.screen { cell with minSlider := UISlider.set x } } := by
  simp only [step] at h
  split at h
  · rename_i cell hcell
    exact ⟨cell, hcell, by simpa using h.symm⟩
  · cases h

theorem step_moveMaxSlider {x : ℚ} (h : step accepts w (.moveMaxSlider x) = some w') :
    ∃ cell, w.screen.ageRangeCell = some cell ∧
      w' = { w with screen := setMinMaxSlider w.screen { cell with maxSlider := UISlider.set x } } := by
  simp only [step] at h
  split at h
  · rename_i cell hcell
    exact ⟨cell, hcell, by simpa using h.symm⟩
  · cases h

theorem step_putDataCallback {k : ℕ} {error : Option SwiftError}
    (h : step accepts w (.putDataCallback k error) = some w') :
    ∃ pick data, w.screen.picks[k]? = some pick ∧ pick.stage = .putData data ∧ w' = { w with
      screen := { w.screen with picks := w.screen.picks.modify k (Pick.putDataCallback error) } } := by
  simp only [step] at h
  split at h
  · rename_i data hudShown hpick
    exact ⟨_, data, hpick, rfl, by simpa using h.symm⟩
  · cases h

theorem step_downloadURLCallback {k : ℕ} {result : Except SwiftError String}
    (h : step accepts w (.downloadURLCallback k result) = some w') :
    ∃ pick, w.screen.picks[k]? = some pick ∧ pick.stage = .downloadURL ∧ w' = { w with
      screen := { w.screen with
        picks := w.screen.picks.modify k fun pick => { pick with stage := .finished, hudShown := false }
        currentUser := urlArrived w.screen.currentUser pick.buttonSelectImage result } } := by
  simp only [step] at h
  split at h
  · rename_i hpick
    exact ⟨_, hpick, rfl, by simpa using h.symm⟩
  · cases h

theorem step_savePressed (h : step accepts w .savePressed = some w') : w' = saveInfoButtonPressed w := by
  simpa [step] using h.symm

theorem step_saveCallback {i : ℕ} {error : Option SwiftError}
    (h : step accepts w (.saveCallback i error) = some w') :
    ∃ save uid datas, w.saves[i]? = some save ∧ save.request = some (uid, datas) ∧ save.pending = true ∧
      ((∃ e, error = some e ∧
          w' = { w with saves := w.saves.modify i Save.finished }) ∨
        error = none ∧ w' = { w with
          saves := w.saves.modify i Save.finished
          users := Function.update w.users uid (some datas)
          settingsSaved := w.settingsSaved + 1 }) := by
  simp only [step] at h
  split at h
  · rename_i uid datas hudShown hsave
    refine ⟨_, uid, datas, hsave, rfl, rfl, ?_⟩
    cases error with
    | some e => exact .inl ⟨e, rfl, by simpa using h.symm⟩
    | none => exact .inr ⟨rfl, by simpa using h.symm⟩
  · cases h

theorem step_logoutPressed {succeeded : Bool} (h : step accepts w (.logoutPressed succeeded) = some w') :
    w' = if succeeded then { w with uid := none } else w := by
  simpa [step] using h.symm

/-- A load callback brings a user or nothing. -/
theorem getByUserInfo_cases (accepts : String → Bool) (screen : SettingsViewController)
    (response : Except SwiftError (Option Infos)) :
    (∃ infos, response = .ok (some infos) ∧ getByUserInfo accepts screen response = reloadData
      { screen with
        load := .answered
        currentUser := some (User.init infos)
        pictureLoads := loadProfilePictures accepts (some (User.init infos)) }) ∨
    (∀ infos, response ≠ .ok (some infos)) ∧
      getByUserInfo accepts screen response = { screen with load := .answered } := by
  cases response with
  | error error => exact .inr ⟨by simp, rfl⟩
  | ok stored =>
    cases stored with
    | none => exact .inr ⟨by simp, rfl⟩
    | some infos => exact .inl ⟨infos, rfl, rfl⟩

/-! ### What a step leaves alone -/

/-- The parts of the world that events change one by one. -/
inductive Part
  | account
  | store
  | load
  | user
  | textCells
  | ageRangeCell
  | picks

/-- The events that may change a part. -/
def Part.changedBy : Part → Event → Bool
  | .account, .logoutPressed _ => true
  | .store, .savePressed | .store, .saveCallback _ _ => true
  | .load, .loadCallback _ => true
  | .user, .loadCallback _ | .user, .editText _ _ | .user, .moveMinSlider _ | .user, .moveMaxSlider _
  | .user, .downloadURLCallback _ _ => true
  | .textCells, .loadCallback _ | .textCells, .willDisplay _ | .textCells, .didEndDisplaying _
  | .textCells, .reloadData | .textCells, .editText _ _ => true
  | .ageRangeCell, .loadCallback _ | .ageRangeCell, .willDisplayAgeRange
  | .ageRangeCell, .didEndDisplayingAgeRange | .ageRangeCell, .reloadData
  | .ageRangeCell, .moveMinSlider _ | .ageRangeCell, .moveMaxSlider _ => true
  | .picks, .pick _ _ | .picks, .putDataCallback _ _ | .picks, .downloadURLCallback _ _ => true
  | _, _ => false

/-- Every part that an event does not change is as before. -/
structure Frame (e : Event) (w w' : World) : Prop where
  account : Part.account.changedBy e = false → w'.uid = w.uid
  store : Part.store.changedBy e = false → w'.users = w.users ∧ w'.saves = w.saves
  load : Part.load.changedBy e = false → w'.screen.load = w.screen.load
  user : Part.user.changedBy e = false → w'.screen.currentUser = w.screen.currentUser
  textCells : Part.textCells.changedBy e = false → w'.screen.textCell = w.screen.textCell
  ageRangeCell : Part.ageRangeCell.changedBy e = false → w'.screen.ageRangeCell = w.screen.ageRangeCell
  picks : Part.picks.changedBy e = false → w'.screen.picks = w.screen.picks

theorem step_frame {e : Event} (hstep : step accepts w e = some w') : Frame e w w' := by
  cases e with
  | loadCallback error =>
    obtain ⟨uid, _, rfl⟩ := step_loadCallback hstep
    refine ⟨fun _ => rfl, fun _ => ⟨rfl, rfl⟩, nofun, nofun, nofun, nofun, fun _ => ?_⟩
    rcases getByUserInfo_cases accepts w.screen (w.getDocument uid error) with ⟨_, _, heq⟩ | ⟨_, heq⟩
    · rw [heq]
      rfl
    · rw [heq]
  | pictureLoaded slot succeeded =>
    obtain ⟨_, _, rfl⟩ := step_pictureLoaded hstep
    constructor <;> rintro ⟨⟩ <;> simp
  | editText row text =>
    obtain ⟨_, _, rfl⟩ := step_editText hstep
    constructor <;> rintro ⟨⟩ <;> simp [editText]
  | moveMinSlider x =>
    obtain ⟨_, _, rfl⟩ := step_moveMinSlider hstep
    constructor <;> rintro ⟨⟩ <;> simp [setMinMaxSlider]
  | moveMaxSlider x =>
    obtain ⟨_, _, rfl⟩ := step_moveMaxSlider hstep
    constructor <;> rintro ⟨⟩ <;> simp [setMinMaxSlider]
  | putDataCallback k error =>
    obtain ⟨_, _, _, _, rfl⟩ := step_putDataCallback hstep
    constructor <;> rintro ⟨⟩ <;> simp
  | downloadURLCallback k result =>
    obtain ⟨_, _, _, rfl⟩ := step_downloadURLCallback hstep
    constructor <;> rintro ⟨⟩ <;> simp
  | savePressed =>
    rw [step_savePressed hstep, saveInfoButtonPressed]
    split <;> constructor <;> rintro ⟨⟩ <;> simp
  | saveCallback i error =>
    obtain ⟨_, _, _, _, _, _, ⟨_, _, rfl⟩ | ⟨_, rfl⟩⟩ := step_saveCallback hstep <;>
      constructor <;> rintro ⟨⟩ <;> simp
  | logoutPressed succeeded =>
    rw [step_logoutPressed hstep]
    split <;> constructor <;> rintro ⟨⟩ <;> simp
  | _ =>
    simp only [step, Option.some.injEq] at hstep
    subst hstep
    constructor <;> rintro ⟨⟩ <;> simp [reloadData, didFinishPicking]

/-! ### What a step does to the cells and the picks -/

/-- A cell on display after a step was there before, perhaps with another text, or has just been built. -/
theorem step_textCell {e : Event} (hstep : step accepts w e = some w') {row : TextRow} {cell : SettingsViewCell}
    (hcell : w'.screen.textCell row = some cell) :
    (e ≠ .willDisplay row ∧ ∃ c, w.screen.textCell row = some c ∧ cell.editingChanged = c.editingChanged) ∨
      e = .willDisplay row ∧ cell = cellForTextRow w.screen.currentUser row := by
  have hupdate : ∀ {row' : TextRow} {new : Option SettingsViewCell},
      Function.update w.screen.textCell row' new row = some cell →
      (row = row' ∧ new = some cell) ∨ row' ≠ row ∧ w.screen.textCell row = some cell := by
    intro row' new hnew
    by_cases hrow : row = row'
    · subst hrow
      rw [Function.update_self] at hnew
      exact .inl ⟨rfl, hnew⟩
    · rw [Function.update_of_ne hrow] at hnew
      exact .inr ⟨Ne.symm hrow, hnew⟩
  cases e with
  | loadCallback error =>
    obtain ⟨uid, _, rfl⟩ := step_loadCallback hstep
    rcases getByUserInfo_cases accepts w.screen (w.getDocument uid error) with ⟨_, _, heq⟩ | ⟨_, heq⟩
    · simp [heq, reloadData] at hcell
    · exact .inl ⟨by simp, cell, by simpa [heq] using hcell, rfl⟩
  | willDisplay row' =>
    simp only [step, Option.some.injEq] at hstep
    subst hstep
    rcases hupdate hcell with ⟨rfl, hnew⟩ | ⟨hne, hold⟩
    · exact .inr ⟨rfl, (Option.some.inj hnew).symm⟩
    · exact .inl ⟨by simp [hne], cell, hold, rfl⟩
  | didEndDisplaying row' =>
    simp only [step, Option.some.injEq] at hstep
    subst hstep
    rcases hupdate hcell with ⟨_, hnew⟩ | ⟨_, hold⟩
    · cases hnew
    · exact .inl ⟨by simp, cell, hold, rfl⟩
  | reloadData =>
    simp only [step, Option.some.injEq] at hstep
    subst hstep
    cases hcell
  | editText row' text =>
    obtain ⟨c, hc, rfl⟩ := step_editText hstep
    rcases hupdate hcell with ⟨rfl, hnew⟩ | ⟨_, hold⟩
    · exact .inl ⟨by simp, c, hc, by rw [← Option.some.inj hnew]⟩
    · exact .inl ⟨by simp, cell, hold, rfl⟩
  | _ =>
    rw [(step_frame hstep).textCells rfl] at hcell
    exact .inl ⟨by simp, cell, hcell, rfl⟩

/-- A pick is appended by the picker; its callbacks change its stage and never its slot. -/
theorem step_picks {e : Event} (hstep : step accepts w e = some w') :
    w'.screen.picks = w.screen.picks ∨
    (∃ slot selectedImage pick, e = .pick slot selectedImage ∧ pick.buttonSelectImage = slot ∧
      w'.screen.picks = w.screen.picks ++ [pick]) ∨
    ∃ k f, (∀ pick, (f pick).buttonSelectImage = pick.buttonSelectImage) ∧
      w'.screen.picks = w.screen.picks.modify k f := by
  cases e with
  | pick slot selectedImage =>
    simp only [step, Option.some.injEq] at hstep
    subst hstep
    refine .inr (.inl ⟨slot, selectedImage, _, rfl, ?_, rfl⟩)
    split <;> rfl
  | putDataCallback k error =>
    obtain ⟨_, _, _, _, rfl⟩ := step_putDataCallback hstep
    refine .inr (.inr ⟨k, _, fun pick => ?_, rfl⟩)
    cases error <;> rfl
  | downloadURLCallback k result =>
    obtain ⟨_, _, _, rfl⟩ := step_downloadURLCallback hstep
    refine .inr (.inr ⟨k, _, fun pick => ?_, rfl⟩)
    rfl
  | _ => exact .inl ((step_frame hstep).picks rfl)

end step

end CloneProjects.Tinder.Settings
