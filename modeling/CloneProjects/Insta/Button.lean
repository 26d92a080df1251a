import CloneProjects.Insta.Screen

/-!
# The register button

`textFieldControl` recomputes `isEnabled` whenever the user edits a text. `resetAppearance` empties the texts from
code, which fires no `editingChanged`, and leaves the button as it was.
-/

namespace CloneProjects.Insta

open EventRun (run Always Guarded)

/-- The three texts are filled. -/
def ViewController.Filled (screen : ViewController) : Prop :=
  screen.emailTextField ≠ "" ∧ screen.userNameTextField ≠ "" ∧ screen.passwordTextField ≠ ""

/-- The press had a user name, and called `createUser` with an email and a password. -/
def Call.Filled (call : Call) : Prop :=
  call.userName ≠ "" ∧ ∀ email password, .createUser email password ∈ call.issued → email ≠ "" ∧ password ≠ ""

/-- The button is enabled exactly while the form can be submitted, and no press has called `createUser` with an
empty field. -/
def World.Gated (w : World) : Prop :=
  (w.screen.isEnabled = true ↔ w.screen.Filled) ∧ ∀ call ∈ w.calls, call.Filled

/-- If the event runs `resetAppearance`, some text is empty already. -/
def ResetsUnfilled (w : World) : Event → Prop
  | .downloadURLCallback _ _ => ¬ w.screen.Filled
  | _ => True

section
variable {addphotobuttonimage : UIImage} {w w' : World} {e : Event}

theorem isTextFieldsValidate_iff (screen : ViewController) : screen.isTextFieldsValidate = true ↔ screen.Filled := by
  have hcount : ∀ text : String, 0 < text.length ↔ text ≠ "" := by
    intro text
    rw [Nat.pos_iff_ne_zero, ne_eq, String.length_eq_zero_iff]
  simp only [ViewController.isTextFieldsValidate, ViewController.Filled, Bool.and_eq_true, decide_eq_true_eq, hcount,
    and_assoc]

theorem textFieldControl_isEnabled (screen : ViewController) :
    screen.textFieldControl.isEnabled = true ↔ screen.textFieldControl.Filled := by
  have hfilled : screen.textFieldControl.Filled ↔ screen.Filled := by
    unfold ViewController.textFieldControl
    split <;> exact Iff.rfl
  rw [hfilled, ← isTextFieldsValidate_iff]
  unfold ViewController.textFieldControl
  split
  · rename_i hvalid
    simp [hvalid]
  · rename_i hvalid
    simp [hvalid]

theorem editingChanged_isEnabled (screen : ViewController) (text : String) (field : Field) :
    (screen.editingChanged text field).isEnabled = true ↔ (screen.editingChanged text field).Filled := by
  cases field <;> exact textFieldControl_isEnabled _

theorem Call.Filled.issue {call : Call} {request : Request} (h : call.Filled)
    (hrequest : ∀ email password, request ≠ .createUser email password) : (call.issue request).Filled := by
  refine ⟨h.1, fun email password hmem => ?_⟩
  rcases List.mem_append.mp hmem with hmem | hmem
  · exact h.2 email password hmem
  · exact absurd (List.mem_singleton.mp hmem).symm (hrequest email password)

/-- While the button tells the truth, no press submits an empty field. -/
theorem step_calls_filled (hbutton : w.screen.isEnabled = true ↔ w.screen.Filled)
    (h : ∀ call ∈ w.calls, call.Filled) (hstep : step addphotobuttonimage w e = some w') :
    ∀ call ∈ w'.calls, call.Filled := by
  have hmodify : ∀ {i : ℕ} {f : Call → Call}, (∀ call : Call, call.Filled → (f call).Filled) →
      ∀ call ∈ w.calls.modify i f, call.Filled := fun hf =>
    CallTable.all_iff_mem.mp ((CallTable.all_iff_mem.mpr h).modify fun call _ hcall => hf call hcall)
  cases step_effect hstep with
  | edited => exact h
  | picked => exact h
  | pressed henabled =>
    obtain ⟨hemail, hname, hpassword⟩ := hbutton.mp henabled
    intro call hmem
    rcases List.mem_append.mp hmem with hmem | hmem
    · exact h call hmem
    · rw [List.mem_singleton.mp hmem]
      refine ⟨hname, fun email password hissued => ?_⟩
      simp only [Call.issue, List.nil_append, List.mem_singleton, Request.createUser.injEq] at hissued
      obtain ⟨rfl, rfl⟩ := hissued
      exact ⟨hemail, hpassword⟩
  | accountCreated => exact hmodify fun _ hcall => Call.Filled.issue hcall nofun
  | imageSaved | located => exact hmodify fun _ hcall => hcall.issue nofun
  | refused | uploadFailed | saveFailed | saved | hudGone => exact hmodify fun _ hcall => hcall

/-- Where the button was right, it is right after exactly the steps that do not empty a filled form. -/
theorem step_gated (h : w.Gated) (hstep : step addphotobuttonimage w e = some w') :
    w'.Gated ↔ ResetsUnfilled w e := by
  obtain ⟨hbutton, hcalls⟩ := h
  refine (and_iff_left (step_calls_filled hbutton hcalls hstep)).trans ?_
  cases step_effect hstep with
  | edited => exact iff_of_true (editingChanged_isEnabled _ _ _) trivial
  | located =>
    have hempty : ¬ (w.screen.resetAppearance addphotobuttonimage).Filled := fun hfilled => hfilled.1 rfl
    constructor
    · intro hbutton' hfilled
      exact hempty (hbutton'.mp (hbutton.mpr hfilled))
    · intro hunfilled
      exact iff_of_false (fun henabled => hunfilled (hbutton.mp henabled)) hempty
  | _ => exact iff_of_true hbutton trivial

/-- **The register button.** All along a run the button is enabled exactly while the three texts are filled, and
`createUser` is never called with an empty field, if and only if no `downloadURL` callback finds a filled form. -/
theorem button_gates_iff {accounts : List Account} {users : String → Option Infos} {es : List Event}
    (hrun : run (step addphotobuttonimage) (opened addphotobuttonimage accounts users) es = some w) :
    Always (step addphotobuttonimage) World.Gated (opened addphotobuttonimage accounts users) es ↔
      Guarded (step addphotobuttonimage) (fun _ => ResetsUnfilled)
        (opened addphotobuttonimage accounts users) es := by
  refine EventRun.always_iff_guarded (C := fun _ => ResetsUnfilled) ⟨?_, ?_⟩
    (fun _ _ _ _ _ h hstep => step_gated h hstep) hrun
  · simp [opened, viewDidLoad, ViewController.Filled]
  · simp [opened]

end

/-- The form is filled. -/
def filledForm : List Event :=
  [.editingChanged .email "a@b.c", .editingChanged .userName "ada", .editingChanged .password "secret"]

/-- Register is pressed, and all four callbacks succeed. -/
def registered : List Event := filledForm ++ .registerButtonClicked :: [.createUserCallback 0 (.ok "uid0"),
  .putDataCallback 0 none, .downloadURLCallback 0 (.ok ⟨"https://host/image", by decide⟩), .setDataCallback 0 none]

/-- The registration is refused, and the form still gates. -/
theorem refused_button_gates : Always (step ⟨"add", none⟩) World.Gated (opened ⟨"add", none⟩ [] fun _ => none)
    (filledForm ++ .registerButtonClicked :: [.createUserCallback 0 (.error ⟨"email in use"⟩)]) := by
  refine (button_gates_iff (w := _) rfl).mpr (EventRun.guarded_of_forall fun e hmem pre s => ?_)
  simp only [filledForm, List.cons_append, List.nil_append, List.mem_cons, List.not_mem_nil, or_false] at hmem
  rcases hmem with rfl | rfl | rfl | rfl | rfl <;> trivial

/-- A finished registration leaves the button enabled over an empty form, and the next press calls `createUser`
with empty texts. -/
theorem registered_button_enabled : ¬ ∀ es w,
    run (step ⟨"add", none⟩) (opened ⟨"add", none⟩ [] fun _ => none) es = some w → w.Gated := by
  intro h
  have hgated := h (registered ++ [.registerButtonClicked]) _ rfl
  obtain ⟨hemail, _⟩ := (hgated.2 _ (List.mem_of_getElem? (i := 1) rfl)).2 "" "" (List.mem_singleton_self _)
  exact hemail rfl

end CloneProjects.Insta
