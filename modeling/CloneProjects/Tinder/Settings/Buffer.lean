import CloneProjects.Base.EditBuffer
import CloneProjects.Tinder.Settings.Screen

/-!
# The Settings screen is an edit buffer

Seen from the signed-in user's document, the screen loads a copy (`User.init`), edits it and saves the whole
document (`datas`). `step_buffer` says that every step of the screen is a step of that buffer.
-/

namespace CloneProjects.Tinder.Settings

open EditBuffer (Action Buffer Codec)

def codec (uid : String) : Codec Infos User := ⟨User.init, datas uid⟩

/-- The screen, seen from the document of `uid`. -/
def World.buffer (uid : String) (w : World) : Buffer Infos User where
  stored := w.users uid
  copy := w.screen.currentUser
  loading := match w.screen.load with
    | .getDocument _ => true
    | _ => false
  writes := w.saves.filterMap fun save => save.request.map (·.2)

/-- The search range a slider event gives a loaded user. -/
def AgeRangeCell.setRange (cell : AgeRangeCell) (user : User) : User :=
  { user with searchMinAge := some cell.minValue, searchMaxAge := some cell.maxValue }

/-- What an event does to a loaded user. -/
def Event.edit (w : World) : Event → User → User
  | .editText row text =>
    match (w.screen.textCell row).bind (·.editingChanged) with
    | some handler => fun user => handler.action text user
    | none => id
  | .moveMinSlider x =>
    match w.screen.ageRangeCell with
    | some cell => AgeRangeCell.setRange { cell with minSlider := UISlider.set x }
    | none => id
  | .moveMaxSlider x =>
    match w.screen.ageRangeCell with
    | some cell => AgeRangeCell.setRange { cell with maxSlider := UISlider.set x }
    | none => id
  | .downloadURLCallback k (.ok url) =>
    match w.screen.picks[k]? with
    | some upload => fun user => upload.buttonSelectImage.setImageURL user (some url)
    | none => id
  | _ => id

/-- The buffer action of an event. -/
def World.action (uid : String) (w : World) : Event → Action Infos User
  | .loadCallback none => if (w.users uid).isSome then .load else .loadFailed
  | .loadCallback (some _) => .loadFailed
  | .savePressed => if w.uid.isSome then .save else .idle
  | .saveCallback i none =>
    match (w.saves[i]?).bind (·.request) with
    | some (_, datas) => .apply datas
    | none => .idle
  | e => .edit (e.edit w)

/-- The screen belongs to the user `uid`: the load and the Saves are of that user's document. -/
structure Session (uid : String) (w : World) : Prop where
  signedIn : ∀ u, w.uid = some u → u = uid
  load : ∀ u, w.screen.load = .getDocument u → u = uid
  saves : ∀ save ∈ w.saves, ∀ u datas, save.request = some (u, datas) → u = uid

section
variable {accepts : String → Bool} {uid : String} {w w' : World} {e : Event}

theorem session_opened (uid : String) (users : String → Option Infos) : Session uid (opened (some uid) users) where
  signedIn u hu := (Option.some.inj hu).symm
  load u hload := by
    simp only [opened, viewDidLoad, Load.getDocument.injEq] at hload
    exact hload.symm
  saves save hmem := by cases hmem

/-- A step that leaves the load and the requests alone. -/
theorem Session.keep (h : Session uid w) (huid : w'.uid = w.uid) (hload : w'.screen.load = w.screen.load)
    (hsaves : w'.saves = w.saves) : Session uid w' :=
  ⟨huid ▸ h.signedIn, hload ▸ h.load, hsaves ▸ h.saves⟩

/-- A Save of the user's own document. -/
theorem Session.save (h : Session uid w) {save : Save}
    (hsave : ∀ u datas, save.request = some (u, datas) → u = uid) :
    Session uid { w with saves := w.saves ++ [save] } := by
  refine ⟨h.signedIn, h.load, fun s hmem => ?_⟩
  rcases List.mem_append.mp hmem with hmem | hmem
  · exact h.saves s hmem
  · rw [List.mem_singleton.mp hmem]
    exact hsave

theorem step_session (hstep : step accepts w e = some w') (h : Session uid w) : Session uid w' := by
  have hframe := step_frame hstep
  cases e with
  | loadCallback error =>
    obtain ⟨v, _, rfl⟩ := step_loadCallback hstep
    refine ⟨h.signedIn, ?_, h.saves⟩
    rcases getByUserInfo_cases accepts w.screen (w.getDocument v error) with ⟨_, _, heq⟩ | ⟨_, heq⟩
    · simp [heq, reloadData]
    · simp [heq]
  | savePressed =>
    rw [step_savePressed hstep, saveInfoButtonPressed]
    split
    · exact h.save (by simp)
    · rename_i v huid
      refine h.save fun u datas hrequest => ?_
      cases hrequest
      exact h.signedIn v huid
  | saveCallback i error =>
    have hsaves : ∀ save ∈ w.saves.modify i Save.finished,
        ∀ u datas, save.request = some (u, datas) → u = uid := by
      rw [← CallTable.all_iff_mem]
      exact CallTable.All.modify (CallTable.all_iff_mem.mpr h.saves) fun _ _ hsave => hsave
    obtain ⟨_, _, _, _, _, _, ⟨_, _, rfl⟩ | ⟨_, rfl⟩⟩ := step_saveCallback hstep
    · exact ⟨h.signedIn, h.load, hsaves⟩
    · exact ⟨h.signedIn, h.load, hsaves⟩
  | logoutPressed succeeded =>
    rw [step_logoutPressed hstep]
    split
    · exact ⟨by simp, h.load, h.saves⟩
    · exact h
  | _ => exact h.keep (hframe.account rfl) (hframe.load rfl) (hframe.store rfl).2

/-! ### Every step is a step of the buffer -/

/-- A step that acts on the copy alone. -/
theorem edit_step {f : User → User} (hcopy : w'.screen.currentUser = w.screen.currentUser.map f)
    (hload : w'.screen.load = w.screen.load) (husers : w'.users = w.users) (hsaves : w'.saves = w.saves) :
    EditBuffer.Step (codec uid) (w.buffer uid) (.edit f) (w'.buffer uid) := by
  have heq : w'.buffer uid = { w.buffer uid with copy := (w.buffer uid).copy.map f } := by
    simp only [World.buffer, hcopy, hload, husers, hsaves]
  rw [heq]
  exact .edit f

/-- The answer to the load, which brings the document stored then or nothing. -/
theorem load_step {error : Option SwiftError} (hstep : step accepts w (.loadCallback error) = some w')
    (h : Session uid w) :
    EditBuffer.Step (codec uid) (w.buffer uid) (w.action uid (.loadCallback error)) (w'.buffer uid) := by
  obtain ⟨v, hload, rfl⟩ := step_loadCallback hstep
  obtain rfl := h.load v hload
  have hloading : (w.buffer v).loading = true := by simp [World.buffer, hload]
  rcases getByUserInfo_cases accepts w.screen (w.getDocument v error) with ⟨infos, hok, heq⟩ | ⟨hnone, heq⟩
  · cases error with
    | some error => cases hok
    | none =>
      have hstored : w.users v = some infos := Except.ok.inj hok
      rw [heq, World.action, if_pos (by simp [hstored])]
      exact .load hloading hstored
  · have haction : w.action v (.loadCallback error) = .loadFailed := by
      cases error with
      | some error => rfl
      | none =>
        have hstored : w.users v = none := Option.eq_none_iff_forall_ne_some.mpr fun infos hinfos =>
          hnone infos (by rw [World.getDocument, hinfos])
        rw [World.action, if_neg (by simp [hstored])]
    rw [haction, heq]
    exact .loadFailed

/-- The answer to a Save, which stores its document or nothing. -/
theorem save_step {i : ℕ} {error : Option SwiftError} (hstep : step accepts w (.saveCallback i error) = some w')
    (h : Session uid w) :
    EditBuffer.Step (codec uid) (w.buffer uid) (w.action uid (.saveCallback i error)) (w'.buffer uid) := by
  have hwrites : (w.saves.modify i Save.finished).filterMap (fun save => save.request.map (·.2)) =
      (w.buffer uid).writes :=
    CallTable.filterMap_modify (f := Save.finished) (fun _ => rfl) w.saves i
  obtain ⟨save, v, datas, hsave, hrequest, _, ⟨_, rfl, rfl⟩ | ⟨rfl, rfl⟩⟩ := step_saveCallback hstep
  · have heq : World.buffer uid { w with saves := w.saves.modify i Save.finished } = w.buffer uid := by
      simp only [World.buffer, hwrites]
    rw [heq]
    have hidle : EditBuffer.Step (codec uid) (w.buffer uid) (.edit id) _ := .edit id
    simpa [World.buffer, World.action, Event.edit] using hidle
  · obtain rfl := h.saves save (List.mem_of_getElem? hsave) v datas hrequest
    have hmem : datas ∈ (w.buffer v).writes :=
      List.mem_filterMap.mpr ⟨save, List.mem_of_getElem? hsave, by simp [hrequest]⟩
    have haction : w.action v (.saveCallback i none) = .apply datas := by
      simp [World.action, hsave, hrequest]
    rw [haction]
    have happly : EditBuffer.Step (codec v) (w.buffer v) (.apply datas) _ := .apply hmem
    simpa [World.buffer, hwrites] using happly

theorem step_buffer (hstep : step accepts w e = some w') (h : Session uid w) :
    EditBuffer.Step (codec uid) (w.buffer uid) (w.action uid e) (w'.buffer uid) := by
  cases e with
  | loadCallback error => exact load_step hstep h
  | savePressed =>
    rw [step_savePressed hstep, saveInfoButtonPressed]
    split
    · rename_i huid
      simpa [World.action, World.buffer, huid] using EditBuffer.Step.idle
    · rename_i v huid
      obtain rfl := h.signedIn v huid
      rw [World.action, if_pos (by simp [huid])]
      have hsave : EditBuffer.Step (codec v) (w.buffer v) .save _ := .save
      simpa [World.buffer, codec] using hsave
  | saveCallback i error => exact save_step hstep h
  | editText row text =>
    obtain ⟨cell, hcell, rfl⟩ := step_editText hstep
    refine edit_step ?_ rfl rfl rfl
    simp only [editText, Event.edit, hcell, Option.bind_some]
    cases cell.editingChanged <;> simp
  | moveMinSlider x =>
    obtain ⟨cell, hcell, rfl⟩ := step_moveMinSlider hstep
    refine edit_step ?_ rfl rfl rfl
    simp only [Event.edit, hcell]
    rfl
  | moveMaxSlider x =>
    obtain ⟨cell, hcell, rfl⟩ := step_moveMaxSlider hstep
    refine edit_step ?_ rfl rfl rfl
    simp only [Event.edit, hcell]
    rfl
  | downloadURLCallback k result =>
    obtain ⟨pick, hpick, _, rfl⟩ := step_downloadURLCallback hstep
    refine edit_step ?_ rfl rfl rfl
    cases result with
    | error error => simp [urlArrived, Event.edit]
    | ok url => simp only [urlArrived, Event.edit, hpick]
  | _ =>
    have hframe := step_frame hstep
    have hcopy := hframe.user rfl
    exact edit_step (by simp [hcopy, Event.edit]) (hframe.load rfl) (hframe.store rfl).1 (hframe.store rfl).2

theorem action_eq_edit {f : User → User} (h : w.action uid e = .edit f) : f = e.edit w := by
  unfold World.action at h
  split at h
  · split at h <;> cases h
  · cases h
  · split at h <;> cases h
  · split at h <;> cases h
  · exact (Action.edit.inj h).symm

/-- Only a press with a signed-in user saves. -/
theorem action_eq_save (h : w.action uid e = .save) : e = .savePressed ∧ w.uid.isSome := by
  unfold World.action at h
  split at h
  · split at h <;> cases h
  · cases h
  · split at h
    · rename_i huid
      exact ⟨rfl, huid⟩
    · cases h
  · split at h <;> cases h
  · cases h

theorem onCopy_action (user : User) : (w.action uid e).onCopy user = e.edit w user := by
  unfold World.action
  split
  · split <;> rfl
  · rfl
  · split <;> rfl
  · split <;> rfl
  · rfl

/-- A loaded user is changed by edits alone. -/
theorem step_currentUser (hstep : step accepts w e = some w') (h : Session uid w)
    (honce : (w.buffer uid).LoadsOnce) {user : User} (huser : w.screen.currentUser = some user) :
    w'.screen.currentUser = some (e.edit w user) := by
  have hcopy := (step_buffer hstep h).copy_eq honce huser
  rwa [onCopy_action] at hcopy

/-- A load that finds a document. -/
theorem step_loaded {infos : Infos} (hstep : step accepts w (.loadCallback none) = some w') (h : Session uid w)
    (hstored : w.users uid = some infos) : w'.screen = reloadData
      { w.screen with
        load := .answered
        currentUser := some (User.init infos)
        pictureLoads := loadProfilePictures accepts (some (User.init infos)) } := by
  obtain ⟨v, hload, rfl⟩ := step_loadCallback hstep
  obtain rfl := h.load v hload
  simp only [World.getDocument, hstored]
  rfl

/-! ### Runs -/

variable {users : String → Option Infos} {es : List Event}

theorem run_session (hrun : EventRun.run (step accepts) (opened (some uid) users) es = some w) :
    Session uid w :=
  EventRun.run_invariant (fun _ _ _ h hstep => step_session hstep h) (session_opened uid users) hrun

theorem run_loadsOnce (hrun : EventRun.run (step accepts) (opened (some uid) users) es = some w) :
    (w.buffer uid).LoadsOnce :=
  EventRun.run_induction (P := fun _ w => (w.buffer uid).LoadsOnce) (fun _ => rfl)
    (fun _ _ _ _ hes h hstep => (step_buffer hstep (run_session hes)).loadsOnce h) hrun

end

end CloneProjects.Tinder.Settings
