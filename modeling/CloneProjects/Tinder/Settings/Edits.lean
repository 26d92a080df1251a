import CloneProjects.Tinder.Settings.Saving
import CloneProjects.Tinder.Settings.Untouched

/-!
# Which edits a save stores

A text field sends its edit to the handler its cell registered when it was built, and the handler changes the
loaded user if there is one. Which handler that was follows from the history (`run_cell`): the name's and the job's
cells always register theirs, the age's cell if it was built last from a user with an age. An edit that reaches its
handler stays in the user until the same field is edited again, and a save stores it.
-/

namespace CloneProjects.Tinder.Settings

open EventRun (run)

/-- The age cell was built last while the in-memory user had an age. -/
def AgeCellBuilt (accepts : String → Bool) (uid : String) (users : String → Option Infos) (es : List Event) : Prop :=
  ∃ pre post m, es = pre ++ .willDisplay .age :: post ∧ .willDisplay .age ∉ post ∧
    run (step accepts) (opened (some uid) users) pre = some m ∧ (m.screen.currentUser.bind (·.age)).isSome

/-- The value a row's text stands for: a decimal integer for the age. -/
def TextRow.value (text : String) : TextRow → Option FieldValue
  | .name => some (.string text)
  | .age => (Numeral.parseInt text).map .integer
  | .job => some (.string text)
  | .about => none

/-- The profile keys that no photo has. -/
def fieldKeys : List String := ["NameSurname", "Age", "Job", "MinimumAge", "MaximumAge"]

def Event.isSlider : Event → Bool
  | .moveMinSlider _ | .moveMaxSlider _ => true
  | _ => false

section
variable {accepts : String → Bool} {uid : String} {users : String → Option Infos} {w w' : World} {e : Event}
  {key : String}

/-! ### What an edit writes -/

theorem TextRow.keys_subset {row : TextRow} (hkey : key ∈ row.keys) : key ∈ fieldKeys := by
  cases row <;> simp_all [TextRow.keys, fieldKeys]

theorem fieldKeys_subset (hkey : key ∈ fieldKeys) : key ∈ textKeys ++ numberKeys := by
  fin_cases hkey <;> simp [textKeys, numberKeys]

theorem Slot.key_ne (hkey : key ∈ fieldKeys) (slot : Slot) : slot.key ≠ key := by
  fin_cases hkey <;> cases slot <;> simp [Slot.key]

/-- Only its own row edits a text row's key. -/
theorem Event.keys_of_row {row : TextRow} (hkey : key ∈ row.keys) (h : key ∈ e.keys) :
    ∃ text, e = .editText row text := by
  cases e with
  | editText row' text =>
    have hrow : row' = row := by
      cases row <;> cases row' <;> simp_all [Event.keys, TextRow.keys]
    exact ⟨text, by rw [hrow]⟩
  | moveMinSlider x => cases row <;> simp_all [Event.keys, TextRow.keys]
  | moveMaxSlider x => cases row <;> simp_all [Event.keys, TextRow.keys]
  | pick slot selectedImage => exact absurd (List.mem_singleton.mp h).symm (slot.key_ne (TextRow.keys_subset hkey))
  | _ => cases h

/-- Only a slider edits the search range. -/
theorem Event.isSlider_of_keys (hkey : key ∈ ["MinimumAge", "MaximumAge"]) (h : key ∈ e.keys) :
    e.isSlider = true := by
  cases e with
  | moveMinSlider x => rfl
  | moveMaxSlider x => rfl
  | editText row text => fin_cases hkey <;> cases row <;> simp [Event.keys, TextRow.keys] at h
  | pick slot selectedImage => fin_cases hkey <;> cases slot <;> simp [Event.keys, Slot.key] at h
  | _ => cases h

theorem datas_action {row : TextRow} {handler : Handler} {text : String} {value : FieldValue} {user : User}
    (hrow : row.handler = some handler) (hkey : key ∈ row.keys) (hvalue : row.value text = some value) :
    datas uid (some (handler.action text user)) key = some value := by
  cases row with
  | name =>
    cases hrow
    rw [List.mem_singleton.mp hkey, ← hvalue]
    rfl
  | age =>
    cases hrow
    obtain ⟨n, hn, rfl⟩ := Option.map_eq_some_iff.mp hvalue
    rw [List.mem_singleton.mp hkey]
    simp [datas, dictionary, List.lookup_cons, Handler.action, hn]
  | job =>
    cases hrow
    rw [List.mem_singleton.mp hkey, ← hvalue]
    rfl
  | about => cases hrow

/-- A slider event puts one pair in the labels and in the loaded user. -/
theorem step_slider (hslider : e.isSlider = true) (hstep : step accepts w e = some w') :
    ∃ cell shown : AgeRangeCell, w'.screen.ageRangeCell = some shown ∧ shown.minLabel = s!"Min {cell.minValue}" ∧
      shown.maxLabel = s!"Max {cell.maxValue}" ∧ e.edit w = cell.setRange := by
  cases e with
  | moveMinSlider x =>
    obtain ⟨cell, hcell, rfl⟩ := step_moveMinSlider hstep
    exact ⟨{ cell with minSlider := UISlider.set x }, _, rfl, rfl, rfl, by simp only [Event.edit, hcell]⟩
  | moveMaxSlider x =>
    obtain ⟨cell, hcell, rfl⟩ := step_moveMaxSlider hstep
    exact ⟨{ cell with maxSlider := UISlider.set x }, _, rfl, rfl, rfl, by simp only [Event.edit, hcell]⟩
  | _ => cases hslider

/-! ### An edit stays until the next one -/

/-- A value that an event gives a loaded user stays while no later event edits its key. -/
theorem run_keeps {pre post : List Event} {s : World} {user : User} {value : FieldValue} (hkey : key ∈ fieldKeys)
    (hpre : run (step accepts) (opened (some uid) users) pre = some s) (huser : s.screen.currentUser = some user)
    (hvalue : datas uid (some (e.edit s user)) key = some value) (hpost : ∀ x ∈ post, key ∉ x.keys)
    (hrun : run (step accepts) (opened (some uid) users) (pre ++ e :: post) = some w) :
    datas uid w.screen.currentUser key = some value := by
  have hkept : ∃ user, w.screen.currentUser = some user ∧ datas uid (some user) key = some value := by
    refine EventRun.run_since (P := fun _ s => ∃ user, s.screen.currentUser = some user ∧
      datas uid (some user) key = some value) hpre (fun s' hstep => ?_) ?_ hrun
    · exact ⟨_, step_currentUser hstep (run_session hpre) (run_loadsOnce hpre) huser, hvalue⟩
    · rintro es t x t' hes hx ⟨user, huser, hvalue⟩ hstep
      refine ⟨_, step_currentUser hstep (run_session hes) (run_loadsOnce hes) huser, ?_⟩
      rw [datas_edit (run_wired hes) (fieldKeys_subset hkey) (fun _ _ => Slot.key_ne hkey _) (hpost x hx)]
      exact hvalue
  obtain ⟨user, huser, hvalue⟩ := hkept
  rw [huser, hvalue]

/-- A cell on display has the handler it registered when it was built, from the user of that moment. -/
theorem run_cell {row : TextRow} {cell : SettingsViewCell} {es : List Event}
    (hrun : run (step accepts) (opened (some uid) users) es = some w) (hcell : w.screen.textCell row = some cell) :
    ∃ pre post m, es = pre ++ .willDisplay row :: post ∧ .willDisplay row ∉ post ∧
      run (step accepts) (opened (some uid) users) pre = some m ∧
      cell.editingChanged = (cellForTextRow m.screen.currentUser row).editingChanged := by
  refine EventRun.run_induction (P := fun es w => ∀ cell, w.screen.textCell row = some cell →
    ∃ pre post m, es = pre ++ .willDisplay row :: post ∧ .willDisplay row ∉ post ∧
      run (step accepts) (opened (some uid) users) pre = some m ∧
      cell.editingChanged = (cellForTextRow m.screen.currentUser row).editingChanged)
    (fun cell h => by cases h) (fun es s e s' hes ih hstep cell hcell => ?_) hrun cell hcell
  rcases step_textCell hstep hcell with ⟨hne, c, hc, heq⟩ | ⟨rfl, rfl⟩
  · obtain ⟨pre, post, m, rfl, hpost, hm, hregistered⟩ := ih c hc
    refine ⟨pre, post ++ [e], m, by simp, ?_, hm, heq.trans hregistered⟩
    simp [hpost, hne.symm]
  · exact ⟨es, [], s, rfl, by simp, hes, rfl⟩

/-- The cell of a row that is edited has the row's handler, for the age if it was built from a user with an age. -/
theorem run_handler {row : TextRow} {cell : SettingsViewCell} {es : List Event}
    (hrun : run (step accepts) (opened (some uid) users) es = some w) (hcell : w.screen.textCell row = some cell)
    (hage : row = .age → AgeCellBuilt accepts uid users es) : cell.editingChanged = row.handler := by
  obtain ⟨pre, post, m, rfl, hpost, hm, hregistered⟩ := run_cell hrun hcell
  rw [hregistered, cellForTextRow_editingChanged, if_neg]
  rintro ⟨rfl, hnone⟩
  obtain ⟨pre', post', m', heq, hpost', hm', hsome⟩ := hage rfl
  obtain rfl := EventRun.last_unique heq hpost hpost'
  rw [hm, Option.some.injEq] at hm'
  subst hm'
  rw [hnone] at hsome
  cases hsome

/-- The last edit of a row, if it reached its handler with the user loaded, is in the copy. -/
theorem edit_kept {a b : List Event} {row : TextRow} {text : String} {value : FieldValue} {s m : World}
    (hs : run (step accepts) (opened (some uid) users) a = some s) (hloaded : s.screen.currentUser.isSome)
    (hage : row = .age → AgeCellBuilt accepts uid users a)
    (hrun : run (step accepts) (opened (some uid) users) (a ++ .editText row text :: b) = some m)
    (hlast : ∀ text', .editText row text' ∉ b) (hkey : key ∈ row.keys) (hvalue : row.value text = some value) :
    datas uid m.screen.currentUser key = some value := by
  obtain ⟨user, huser⟩ := Option.isSome_iff_exists.mp hloaded
  obtain ⟨s', hstep, _⟩ := EventRun.step_of_run hs hrun
  obtain ⟨cell, hcell, _⟩ := step_editText hstep
  have hregistered : cell.editingChanged = row.handler := run_handler hs hcell hage
  obtain ⟨handler, hhandler⟩ : ∃ handler, row.handler = some handler := by
    cases row with
    | about => cases hkey
    | name | age | job => exact ⟨_, rfl⟩
  refine run_keeps (TextRow.keys_subset hkey) hs huser ?_ (fun x hx hmem => ?_) hrun
  · simp only [Event.edit, hcell, Option.bind_some, hregistered, hhandler]
    exact datas_action hhandler hkey hvalue
  · obtain ⟨text', rfl⟩ := Event.keys_of_row hkey hmem
    exact hlast text' hx

/-- The pair of the last slider event is in the copy, if the user was loaded. -/
theorem slider_kept {a b : List Event} {s m : World} {cell : AgeRangeCell}
    (hs : run (step accepts) (opened (some uid) users) a = some s) (hloaded : s.screen.currentUser.isSome)
    (hedit : e.edit s = cell.setRange)
    (hrun : run (step accepts) (opened (some uid) users) (a ++ e :: b) = some m)
    (hlast : ∀ x ∈ b, x.isSlider = false) :
    datas uid m.screen.currentUser "MinimumAge" = some (.integer cell.minValue) ∧
      datas uid m.screen.currentUser "MaximumAge" = some (.integer cell.maxValue) := by
  obtain ⟨user, huser⟩ := Option.isSome_iff_exists.mp hloaded
  have hkeep : ∀ key ∈ ["MinimumAge", "MaximumAge"], ∀ value,
      datas uid (some (cell.setRange user)) key = some value →
      datas uid m.screen.currentUser key = some value := by
    intro key hkey value hvalue
    have hfield : key ∈ fieldKeys := by fin_cases hkey <;> simp [fieldKeys]
    refine run_keeps hfield hs huser (by rw [hedit, hvalue]) (fun x hx hmem => ?_) hrun
    have hnot := hlast x hx
    rw [Event.isSlider_of_keys hkey hmem] at hnot
    cases hnot
  exact ⟨hkeep _ (by simp) _ rfl, hkeep _ (by simp) _ rfl⟩

/-- **Which edits a save stores.** In every run in which a Save was pressed after the events `pre` and is the
last one applied: if the user was loaded at the last edit of a text row, and for the age if the age cell had been built
last while the in-memory user had an age, that text is stored (for the age, the integer it denotes); and if the user
was loaded at the last slider event, the stored search range is the pair that event put in the two labels. -/
theorem save_stores_heard_edits {pre mid post : List Event} {m w : World}
    (hpress : run (step accepts) (opened (some uid) users) pre = some m)
    (hrun : run (step accepts) (opened (some uid) users)
      (pre ++ .savePressed :: (mid ++ .saveCallback m.saves.length none :: post)) = some w)
    (hpost : ∀ i, .saveCallback i none ∉ post) :
    ∃ stored, w.users uid = some stored ∧
      (∀ a row text b s, pre = a ++ .editText row text :: b → (∀ text', .editText row text' ∉ b) →
        run (step accepts) (opened (some uid) users) a = some s → s.screen.currentUser.isSome →
        (row = .age → AgeCellBuilt accepts uid users a) →
        ∀ key ∈ row.keys, ∀ value, row.value text = some value → stored key = some value) ∧
      (∀ a e b s s', pre = a ++ e :: b → e.isSlider = true → (∀ x ∈ b, x.isSlider = false) →
        run (step accepts) (opened (some uid) users) a = some s → step accepts s e = some s' →
        s.screen.currentUser.isSome → ∃ cell minAge maxAge, s'.screen.ageRangeCell = some cell ∧
          cell.minLabel = s!"Min {minAge}" ∧ cell.maxLabel = s!"Max {maxAge}" ∧
          stored "MinimumAge" = some (.integer minAge) ∧ stored "MaximumAge" = some (.integer maxAge)) := by
  refine ⟨_, save_lands_in_session hpress hrun hpost, ?_, ?_⟩
  · rintro a row text b s rfl hlast hs hloaded hage key hkey value hvalue
    exact edit_kept hs hloaded hage hpress hlast hkey hvalue
  · rintro a e b s s' rfl hslider hlast hs hstep hloaded
    obtain ⟨cell, shown, hshown, hmin, hmax, hedit⟩ := step_slider hslider hstep
    obtain ⟨hstoredMin, hstoredMax⟩ := slider_kept hs hloaded hedit hpress hlast
    exact ⟨shown, cell.minValue, cell.maxValue, hshown, hmin, hmax, hstoredMin, hstoredMax⟩

end

/-- The load, the cells built from its result, an edit in each, and a slider moved. -/
def editedRows : List Event :=
  [.loadCallback none, .willDisplay .name, .willDisplay .age, .willDisplay .job, .willDisplayAgeRange,
    .editText .name "Ada L.", .editText .age "31", .editText .job "Writer", .moveMaxSlider 40]

theorem save_stores_editedRows : ∃ w stored,
    run (step fun _ => true) (opened (some "uid") storedUsers)
      (editedRows ++ [.savePressed, .saveCallback 0 none]) = some w ∧
    w.users "uid" = some stored ∧ stored "NameSurname" = some (.string "Ada L.") ∧
    stored "Age" = some (.integer 31) ∧ stored "Job" = some (.string "Writer") ∧
    ∃ minAge maxAge, stored "MinimumAge" = some (.integer minAge) ∧ stored "MaximumAge" = some (.integer maxAge) := by
  have hpress : run (step fun _ => true) (opened (some "uid") storedUsers) editedRows = some _ := rfl
  have hrun : run (step fun _ => true) (opened (some "uid") storedUsers)
      (editedRows ++ .savePressed :: ([] ++ .saveCallback 0 none :: [])) = some _ := rfl
  obtain ⟨stored, hstored, hrows, hsliders⟩ := save_stores_heard_edits hpress hrun (by simp)
  have hbuilt : AgeCellBuilt (fun _ => true) "uid" storedUsers (editedRows.take 6) :=
    ⟨[.loadCallback none, .willDisplay .name], [.willDisplay .job, .willDisplayAgeRange, .editText .name "Ada L."],
      _, rfl, by simp, rfl, rfl⟩
  have hname := hrows (editedRows.take 5) .name "Ada L." (editedRows.drop 6) _ rfl (by simp [editedRows]) rfl rfl
    (by simp) "NameSurname" (by decide) _ rfl
  have hage := hrows (editedRows.take 6) .age "31" (editedRows.drop 7) _ rfl (by simp [editedRows]) rfl rfl
    (fun _ => hbuilt) "Age" (by decide) (.integer 31) rfl
  have hjob := hrows (editedRows.take 7) .job "Writer" (editedRows.drop 8) _ rfl (by simp [editedRows]) rfl rfl
    (by simp) "Job" (by decide) _ rfl
  obtain ⟨_, minAge, maxAge, _, _, _, hmin, hmax⟩ := hsliders (editedRows.take 8) (.moveMaxSlider 40) [] _ _ rfl rfl
    (by simp) rfl rfl rfl
  exact ⟨_, stored, hrun, hstored, hname, hage, hjob, minAge, maxAge, hmin, hmax⟩

/-- The load, the age cell built from its result, and an edit of the age. -/
def editedAge : List Event := [.loadCallback none, .willDisplay .age, .editText .age "31"]

/-- The documents after a registration: the profile has no age. -/
def registeredUsers : String → Option Infos := Function.update (fun _ => none) "uid"
  (some (Register.RegisterViewModel.dataToBeAdded ⟨some "a@b.c", some "Ada", some "secret"⟩ "https://host/image"
    "uid"))

/-- After a registration the age cell has no handler, so the age the user enters is lost. -/
theorem edited_age_lost : ¬ ∀ (pre mid post : List Event) (m w : World),
    run (step fun _ => true) (opened (some "uid") registeredUsers) pre = some m →
    run (step fun _ => true) (opened (some "uid") registeredUsers)
      (pre ++ .savePressed :: (mid ++ .saveCallback m.saves.length none :: post)) = some w →
    (∀ i, .saveCallback i none ∉ post) → ∃ stored, w.users "uid" = some stored ∧
      ∀ a row text b, pre = a ++ .editText row text :: b → (∀ text', .editText row text' ∉ b) →
        ∀ key ∈ row.keys, ∀ value, row.value text = some value → stored key = some value := by
  intro h
  obtain ⟨stored, hstored, hrows⟩ := h editedAge [] [] _ _ rfl rfl (by simp)
  have hage := hrows [.loadCallback none, .willDisplay .age] .age "31" [] rfl (by simp) "Age" (by decide)
    (.integer 31) rfl
  obtain rfl : datas "uid" (some (User.init _)) = stored := Option.some.inj hstored
  have hplaceholder : some (FieldValue.integer (-1)) = some (.integer 31) := hage
  simp at hplaceholder

end CloneProjects.Tinder.Settings
