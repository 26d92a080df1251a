import CloneProjects.Tinder.Settings.Buffer
import CloneProjects.Tinder.Settings.Codec

/-!
# What a save leaves alone

A key no event of the screen has edited keeps its value through every applied save, provided the stored
value has the type the screen reads and no save is pressed before the load of an existing document. The
buffer does the work (`EditBuffer.Kept`); here each event is matched with the keys it edits.
-/

namespace CloneProjects.Tinder.Settings

open EventRun (Guarded run)
open EditBuffer (Kept)

/-- The key of a text row's field. -/
def TextRow.keys : TextRow → List String
  | .name => ["NameSurname"]
  | .age => ["Age"]
  | .job => ["Job"]
  | .about => []

/-- The keys whose fields the user edits by an event. -/
def Event.keys : Event → List String
  | .editText row _ => row.keys
  | .moveMinSlider _ | .moveMaxSlider _ => ["MinimumAge", "MaximumAge"]
  | .pick slot _ => [slot.key]
  | _ => []

/-- The field of a key has been edited. -/
def Touched (es : List Event) (key : String) : Prop := ∃ e ∈ es, key ∈ e.keys

/-- Save is pressed by a signed-in user only once the load has brought the profile, unless no document was stored to
begin with. -/
def SavesLoaded (stored : Option Infos) (_ : List Event) (w : World) (e : Event) : Prop :=
  e = .savePressed → w.uid.isSome → w.screen.currentUser.isSome ∨ stored = none

/-- The action a text field registers for editing, if it registers one. -/
def TextRow.handler : TextRow → Option Handler
  | .name => some .catchTheNameTextFieldChange
  | .age => some .catchTheAgeTextFieldChange
  | .job => some .catchTheJobTextFieldChange
  | .about => none

/-- The cells on display send their own row's action, and every pick is in the history. -/
structure Wired (es : List Event) (w : World) : Prop where
  cells : ∀ row cell, w.screen.textCell row = some cell →
    cell.editingChanged = none ∨ cell.editingChanged = row.handler
  picks : ∀ pick ∈ w.screen.picks, Touched es pick.buttonSelectImage.key

section
variable {accepts : String → Bool} {uid : String} {users : String → Option Infos} {es : List Event}
  {w w' : World} {e : Event} {key : String}

theorem Touched.concat (h : Touched es key) (e : Event) : Touched (es ++ [e]) key := by
  obtain ⟨x, hmem, hkey⟩ := h
  exact ⟨x, List.mem_append_left _ hmem, hkey⟩

theorem touched_concat : Touched (es ++ [e]) key ↔ Touched es key ∨ key ∈ e.keys := by
  simp only [Touched, List.mem_append, List.mem_singleton, or_and_right, exists_or, exists_eq_left]

/-! ### Which keys an edit changes -/

/-- The handler a cell registers: the name's and the job's always do, the age's exactly if the user it is built from
has an age. -/
theorem cellForTextRow_editingChanged (currentUser : Option User) (row : TextRow) :
    (cellForTextRow currentUser row).editingChanged =
      if row = .age ∧ currentUser.bind (·.age) = none then none else row.handler := by
  cases row with
  | age =>
    simp only [cellForTextRow, true_and]
    cases currentUser.bind (·.age) with
    | none => rfl
    | some age => rfl
  | name => rfl
  | job => rfl
  | about => rfl

/-- The three edits of a user, each with the keys it may change. -/
theorem datas_setImageURL {slot : Slot} {url : Option String} {user : User} (hkey : key ∈ textKeys ++ numberKeys)
    (hslot : slot.key ≠ key) : datas uid (some (slot.setImageURL user url)) key = datas uid (some user) key := by
  cases slot <;> fin_cases hkey <;> first | rfl | exact absurd rfl hslot

theorem datas_handler {row : TextRow} {handler : Handler} {text : String} {user : User}
    (hrow : row.handler = some handler) (hkey : key ∈ textKeys ++ numberKeys)
    (huntouched : key ∉ row.keys) :
    datas uid (some (handler.action text user)) key = datas uid (some user) key := by
  cases row <;> cases hrow <;> fin_cases hkey <;> first | rfl | exact absurd (by simp [TextRow.keys]) huntouched

theorem datas_setRange {cell : AgeRangeCell} {user : User} (hkey : key ∈ textKeys ++ numberKeys)
    (huntouched : key ∉ ["MinimumAge", "MaximumAge"]) :
    datas uid (some (cell.setRange user)) key = datas uid (some user) key := by
  fin_cases hkey <;> first | rfl | exact absurd (by decide) huntouched

/-- An event that does not edit the field of a key leaves its value in the copy. -/
theorem datas_edit (hwired : Wired es w) (hkey : key ∈ textKeys ++ numberKeys)
    (hpicks : ∀ pick ∈ w.screen.picks, pick.buttonSelectImage.key ≠ key) (hnow : key ∉ e.keys) (user : User) :
    datas uid (some (e.edit w user)) key = datas uid (some user) key := by
  cases e with
  | editText row text =>
    cases hcell : w.screen.textCell row with
    | none => simp [Event.edit, hcell]
    | some cell =>
      cases hhandler : cell.editingChanged with
      | none => simp [Event.edit, hcell, hhandler]
      | some handler =>
        simp only [Event.edit, hcell, Option.bind_some, hhandler]
        have hrow := (hwired.cells row cell hcell).resolve_left (by simp [hhandler])
        exact datas_handler (hrow.symm.trans hhandler) hkey hnow
  | moveMinSlider x =>
    cases hcell : w.screen.ageRangeCell with
    | none => simp [Event.edit, hcell]
    | some cell =>
      simp only [Event.edit, hcell]
      exact datas_setRange hkey hnow
  | moveMaxSlider x =>
    cases hcell : w.screen.ageRangeCell with
    | none => simp [Event.edit, hcell]
    | some cell =>
      simp only [Event.edit, hcell]
      exact datas_setRange hkey hnow
  | downloadURLCallback k result =>
    cases result with
    | error error => rfl
    | ok url =>
      cases hpick : w.screen.picks[k]? with
      | none => simp [Event.edit, hpick]
      | some pick =>
        simp only [Event.edit, hpick]
        exact datas_setImageURL hkey (hpicks pick (List.mem_of_getElem? hpick))
  | _ => rfl

/-! ### Every step keeps the wiring and what is untouched -/

theorem step_wired (hstep : step accepts w e = some w') (h : Wired es w) : Wired (es ++ [e]) w' where
  cells row cell hcell := by
    rcases step_textCell hstep hcell with ⟨_, c, hc, heq⟩ | ⟨_, rfl⟩
    · rw [heq]
      exact h.cells row c hc
    · rw [cellForTextRow_editingChanged]
      split
      · exact .inl rfl
      · exact .inr rfl
  picks := by
    have hold := fun pick hmem => (h.picks pick hmem).concat e
    rcases step_picks hstep with hsame | ⟨slot, selectedImage, pick, rfl, rfl, heq⟩ | ⟨k, f, hf, heq⟩
    · rw [hsame]
      exact hold
    · rw [heq]
      intro p hmem
      rcases List.mem_append.mp hmem with hmem | hmem
      · exact hold p hmem
      · rw [List.mem_singleton.mp hmem, touched_concat]
        exact .inr (by simp [Event.keys])
    · rw [heq, ← CallTable.all_iff_mem]
      refine CallTable.All.modify (CallTable.all_iff_mem.mpr hold) fun pick _ hpick => ?_
      rw [hf]
      exact hpick

/-- A key not edited so far is kept by the buffer. -/
def Untouched (uid : String) (users : String → Option Infos) (key : String) (es : List Event) (w : World) : Prop :=
  ¬ Touched es key → Kept (codec uid) (fun infos => infos key) (users uid) (w.buffer uid)

theorem step_untouched (hkey : key ∈ textKeys ++ numberKeys) (hstep : step accepts w e = some w')
    (hsession : Session uid w) (hwired : Wired es w) (h : Untouched uid users key es w)
    (hloaded : SavesLoaded (users uid) es w e) : Untouched uid users key (es ++ [e]) w' := by
  intro hnot
  obtain ⟨hpast, hnow⟩ := not_or.mp (mt touched_concat.mpr hnot)
  refine (step_buffer hstep hsession).kept (h hpast) (datas_init_none hkey) ?_ ?_
  · intro f hf user
    rw [action_eq_edit hf]
    refine datas_edit hwired hkey (fun pick hmem => ?_) hnow user
    rintro rfl
    exact hpast (hwired.picks pick hmem)
  · intro hsave
    obtain ⟨hpressed, hsignedIn⟩ := action_eq_save hsave
    exact hloaded hpressed hsignedIn

theorem run_wired (hrun : run (step accepts) (opened (some uid) users) es = some w) : Wired es w :=
  EventRun.run_induction (P := Wired) ⟨by simp [opened, viewDidLoad], by simp [opened, viewDidLoad]⟩
    (fun _ _ _ _ _ h hstep => step_wired hstep h) hrun

theorem run_untouched (hkey : key ∈ textKeys ++ numberKeys)
    (htyped : ∀ infos, users uid = some infos → WellTyped infos key)
    (hrun : run (step accepts) (opened (some uid) users) es = some w)
    (hloaded : Guarded (step accepts) (SavesLoaded (users uid)) (opened (some uid) users) es) :
    Untouched uid users key es w := by
  refine EventRun.guarded_induction (P := Untouched uid users key) (fun _ => ?_)
    (fun _ _ _ _ hes hC h hstep => step_untouched hkey hstep (run_session hes) (run_wired hes) h hC) hrun hloaded
  exact EditBuffer.kept_start fun infos hinfos => datas_init_of_wellTyped (htyped infos hinfos) hkey

/-- **What a save leaves alone.** In every run in which no signed-in user presses Save before the load of an existing
document has succeeded: when a Save is applied, a profile key that was present and has not been edited on the
screen keeps its value, provided the document the screen was opened over has a value of the key's type there or
none. -/
theorem save_keeps_untouched (hkey : key ∈ textKeys ++ numberKeys)
    (htyped : ∀ infos, users uid = some infos → WellTyped infos key)
    (hrun : run (step accepts) (opened (some uid) users) es = some w)
    (hloaded : Guarded (step accepts) (SavesLoaded (users uid)) (opened (some uid) users) es)
    {i : ℕ} (hsaved : step accepts w (.saveCallback i none) = some w') (huntouched : ¬ Touched es key)
    {infos : Infos} {value : FieldValue} (hstored : w.users uid = some infos) (hvalue : infos key = some value) :
    ∃ infos', w'.users uid = some infos' ∧ infos' key = some value := by
  have hkept := run_untouched hkey htyped hrun hloaded huntouched
  obtain ⟨save, v, datas, hsave, hrequest, _, ⟨_, herror, _⟩ | ⟨_, rfl⟩⟩ := step_saveCallback hsaved
  · cases herror
  · obtain rfl := (run_session hrun).saves save (List.mem_of_getElem? hsave) v datas hrequest
    have hwrite : datas ∈ (w.buffer v).writes :=
      List.mem_filterMap.mpr ⟨save, List.mem_of_getElem? hsave, by simp [hrequest]⟩
    exact ⟨datas, Function.update_self .., hkept.apply_same hwrite hstored hvalue⟩

end

theorem save_keeps_untouched_age : ∃ w w' infos',
    run (step fun _ => true) (opened (some "uid") storedUsers)
      [.loadCallback none, .willDisplay .job, .editText .job "Writer", .savePressed] = some w ∧
    step (fun _ => true) w (.saveCallback 0 none) = some w' ∧
    w'.users "uid" = some infos' ∧ infos' "Age" = some (.integer 30) := by
  have hedited : run (step fun _ => true) (opened (some "uid") storedUsers)
      [.loadCallback none, .willDisplay .job, .editText .job "Writer"] = some _ := rfl
  have hrun : run (step fun _ => true) (opened (some "uid") storedUsers)
      [.loadCallback none, .willDisplay .job, .editText .job "Writer", .savePressed] = some _ := rfl
  have htyped : ∀ infos, storedUsers "uid" = some infos → WellTyped infos "Age" := by
    intro infos hinfos
    obtain rfl : storedProfile = infos := Option.some.inj hinfos
    exact wellTyped_storedProfile_age
  have hloaded := (EventRun.guarded_concat (C := SavesLoaded (storedUsers "uid")) (e := .savePressed) hedited).mpr
    ⟨EventRun.guarded_of_forall (by simp [SavesLoaded]), fun _ _ => .inl rfl⟩
  have huntouched : ¬ Touched
      [.loadCallback none, .willDisplay .job, .editText .job "Writer", .savePressed] "Age" := by
    simp [Touched, Event.keys, TextRow.keys]
  obtain ⟨infos', hinfos, hage⟩ :=
    save_keeps_untouched (i := 0) (by decide) htyped hrun hloaded rfl huntouched rfl rfl
  exact ⟨_, _, infos', hrun, rfl, hinfos, hage⟩

/-- Save pressed while the load is pending: the name is replaced by a placeholder. -/
theorem save_before_load_destroys : ¬ ∀ (es : List Event) (w w' : World) (i : ℕ),
    run (step fun _ => true) (opened (some "uid") storedUsers) es = some w →
      step (fun _ => true) w (.saveCallback i none) = some w' → ∀ key ∈ textKeys ++ numberKeys,
        ¬ Touched es key → ∀ infos value, w.users "uid" = some infos → infos key = some value →
          ∃ infos', w'.users "uid" = some infos' ∧ infos' key = some value := by
  intro h
  have huntouched : ¬ Touched [.savePressed] "NameSurname" := by simp [Touched, Event.keys]
  obtain ⟨infos', hinfos, hname⟩ := h [.savePressed] _ _ 0 rfl rfl "NameSurname" (by decide) huntouched
    storedProfile (.string "Ada") rfl rfl
  obtain rfl : datas "uid" none = infos' := Option.some.inj hinfos
  have hplaceholder : some (FieldValue.string "No Name Surname") = some (.string "Ada") := hname
  simp at hplaceholder

end CloneProjects.Tinder.Settings
