import CloneProjects.Tinder.Register.Gate

/-!
# What a registration captures

The closures of a call hold a copy of the view model's texts, so the email, the password and the name are those
of the press. The photo is read through `bindableImage`, a class instance shared with the screen, when
`createUser` succeeds: the bytes are those of the photo selected then (`photoBytes`).
-/

namespace CloneProjects.Tinder.Register

open EventRun (lastOf run)

/-- The photo an event selects. -/
def Event.pickedPhoto : Event → Option (Option UIImage)
  | .didFinishPicking selectedImage => some selectedImage
  | _ => none

/-- The photo selected after the events. -/
def selectedPhoto (es : List Event) : Option UIImage := (lastOf Event.pickedPhoto es).join

/-- The bytes of the photo selected after the events. -/
def photoBytes (es : List Event) : Data := ((selectedPhoto es).bind (·.jpegData)).getD []

/-- The request that an event makes the call `i` send. -/
def Event.request (w : World) (i : ℕ) (call : Call) : Event → Option Request
  | .createUserCallback j (.ok _) => if j = i then some (.putData w.imageData) else none
  | .putDataCallback j none => if j = i then some .downloadURL else none
  | .downloadURLCallback j (.ok imageURL) =>
    if j = i then some (.setData (w.currentUser.getD "")
      (call.captured.dataToBeAdded imageURL (w.currentUser.getD ""))) else none
  | _ => none

/-- What a call has sent is computed from the form at the press: from the three texts on the screen and the
bytes of the selected photo. -/
def Call.SendsForm (call : Call) (pressed : World) : Prop :=
  ∀ request ∈ call.issued, match request with
    | .createUser email password =>
      email = pressed.screen.ui.textFieldForEmail ∧ password = pressed.screen.ui.textFieldForPassword
    | .putData imageData => imageData = pressed.imageData
    | .downloadURL => True
    | .setData _ dataToBeAdded =>
      dataToBeAdded "NameSurname" = some (.string pressed.screen.ui.textFieldForNameandSurname)

section
variable {w w' : World} {e : Event} {i : ℕ} {call : Call}

theorem request_eq_none (h : ∀ j, e.outcome ≠ some (j, none)) : e.request w i call = none := by
  unfold Event.request
  split
  · exact absurd rfl (h _)
  · exact absurd rfl (h _)
  · exact absurd rfl (h _)
  · rfl

theorem request_eq_some {request : Request} : e.request w i call = some request ↔
    (∃ uid, e = .createUserCallback i (.ok uid) ∧ request = .putData w.imageData) ∨
    (e = .putDataCallback i none ∧ request = .downloadURL) ∨
    ∃ imageURL, e = .downloadURLCallback i (.ok imageURL) ∧
      request = .setData (w.currentUser.getD "") (call.captured.dataToBeAdded imageURL (w.currentUser.getD "")) := by
  constructor
  · intro h
    unfold Event.request at h
    split at h
    · split at h
      · rename_i uid hj
        exact .inl ⟨uid, by rw [hj], (Option.some.inj h).symm⟩
      · cases h
    · split at h
      · rename_i hj
        exact .inr (.inl ⟨by rw [hj], (Option.some.inj h).symm⟩)
      · cases h
    · split at h
      · rename_i imageURL hj
        exact .inr (.inr ⟨imageURL, by rw [hj], (Option.some.inj h).symm⟩)
      · cases h
    · cases h
  · rintro (⟨uid, rfl, rfl⟩ | ⟨rfl, rfl⟩ | ⟨imageURL, rfl, rfl⟩)
    · exact if_pos rfl
    · exact if_pos rfl
    · exact if_pos rfl

/-- A call keeps what it captured, and sends what the event makes it send. -/
theorem step_request (hstep : step w e = some w') (hcall : w.calls[i]? = some call) :
    ∃ call', w'.calls[i]? = some call' ∧ call'.captured = call.captured ∧
      call'.issued = call.issued ++ (e.request w i call).toList := by
  have hkeep : e.request w i call = none → call.issued = call.issued ++ (e.request w i call).toList := by
    intro hnone
    rw [hnone, Option.toList_none, List.append_nil]
  have hmodify : ∀ {j : ℕ} {f : Call → Call}, (i ≠ j → e.request w i call = none) →
      (i = j → (f call).captured = call.captured ∧ (f call).issued = call.issued ++ (e.request w i call).toList) →
      ∃ call', (w.calls.modify j f)[i]? = some call' ∧ call'.captured = call.captured ∧
        call'.issued = call.issued ++ (e.request w i call).toList := by
    intro j f hother hsame
    exact CallTable.exists_modify_of hcall hsame fun hj => ⟨rfl, hkeep (hother hj)⟩
  cases step_effect hstep with
  | screenOnly screen hout => exact ⟨call, hcall, rfl, hkeep (request_eq_none (by simp [hout]))⟩
  | pressed screen hemail => exact ⟨call, CallTable.getElem?_concat_of hcall, rfl, hkeep rfl⟩
  | failed hawaiting hout =>
    have hnone : e.request w i call = none := request_eq_none (by simp [hout])
    exact hmodify (fun _ => hnone) fun _ => ⟨rfl, hkeep hnone⟩
  | accountCreated hawaiting hcan =>
    refine hmodify (fun hj => if_neg (Ne.symm hj)) fun hj => ⟨rfl, ?_⟩
    rw [Event.request, if_pos hj.symm]
    rfl
  | imageSaved hawaiting =>
    refine hmodify (fun hj => if_neg (Ne.symm hj)) fun hj => ⟨rfl, ?_⟩
    rw [Event.request, if_pos hj.symm]
    rfl
  | located hawaiting =>
    refine hmodify (fun hj => if_neg (Ne.symm hj)) fun hj => ⟨rfl, ?_⟩
    rw [Event.request, if_pos hj.symm]
    rfl
  | userInfoSaved hawaiting => exact hmodify (fun _ => rfl) fun _ => ⟨rfl, hkeep rfl⟩

/-! ### The selected photo -/

/-- Only the picker changes the photo. -/
theorem step_bindableImage (hstep : step w e = some w') :
    w'.screen.bindableImage.value = (e.pickedPhoto.getD w.screen.bindableImage.value) := by
  cases e with
  | editingChanged field text =>
    rw [step_editingChanged hstep]
    cases field <;> rfl
  | didFinishPicking selectedImage =>
    rw [step_didFinishPicking hstep]
    rfl
  | registerButtonPressed =>
    rw [(step_registerButtonPressed hstep).2]
    rcases userRegister_cases w with ⟨_, _, _, _, hpass⟩ | ⟨_, hguard⟩
    · rw [hpass]
      rfl
    · rw [hguard]
      rfl
  | registerHudDelay =>
    rw [step_registerHudDelay hstep]
    rfl
  | createUserCallback j result =>
    obtain ⟨_, _, _, ⟨_, _, rfl⟩ | ⟨_, _, _, rfl⟩⟩ := step_createUserCallback hstep <;> rfl
  | putDataCallback j error =>
    obtain ⟨_, _, ⟨_, _, rfl⟩ | ⟨_, rfl⟩⟩ := step_putDataCallback hstep <;> rfl
  | downloadURLCallback j result =>
    obtain ⟨_, ⟨_, _, rfl⟩ | ⟨_, _, rfl⟩⟩ := step_downloadURLCallback hstep <;> rfl
  | setDataCallback j error =>
    obtain ⟨_, _, _, ⟨_, _, rfl⟩ | ⟨_, rfl⟩⟩ := step_setDataCallback hstep <;> rfl

end

/-! ### Runs -/

section runs
variable {accounts : List Account} {currentUser : Option String} {users : String → Option Infos}
  {es : List Event} {w : World}

theorem run_imageData (hrun : run step (opened accounts currentUser users) es = some w) :
    w.imageData = photoBytes es := by
  have hphoto : w.screen.bindableImage.value = selectedPhoto es := by
    refine EventRun.run_induction (P := fun es w => w.screen.bindableImage.value = selectedPhoto es) rfl
      (fun es s e s' _ h hstep => ?_) hrun
    rw [step_bindableImage hstep, h, selectedPhoto, selectedPhoto, EventRun.lastOf_concat]
    cases e.pickedPhoto <;> rfl
  rw [World.imageData, hphoto]
  rfl

/-- The requests of a call after its press: the account first, then what its callbacks made it send, the
photo's bytes as they were when `createUser` succeeded. -/
structure Call.Sent (pressed : World) (pre post : List Event) (i : ℕ) (call : Call) : Prop where
  captured : call.captured = pressed.screen.registerViewModel
  createUser : ∀ email password, .createUser email password ∈ call.issued →
    email = pressed.screen.ui.textFieldForEmail ∧ password = pressed.screen.ui.textFieldForPassword
  setData : ∀ userID dataToBeAdded, .setData userID dataToBeAdded ∈ call.issued →
    dataToBeAdded "NameSurname" = some (.string pressed.screen.ui.textFieldForNameandSurname)
  putData : ∀ imageData, .putData imageData ∈ call.issued ↔ ∃ mid uid rest,
    post = mid ++ .createUserCallback i (.ok uid) :: rest ∧
      imageData = photoBytes (pre ++ .registerButtonPressed :: mid)

theorem sent_press (pre : List Event) (m : World) (i : ℕ) :
    (Call.issue (.createUser m.screen.ui.textFieldForEmail m.screen.ui.textFieldForPassword)
      ⟨m.screen.registerViewModel, none, none, [], []⟩).Sent m pre [] i where
  captured := rfl
  createUser email password hmem := by
    simpa [Call.issue] using hmem
  setData userID dataToBeAdded hmem := by simp [Call.issue] at hmem
  putData imageData := by simp [Call.issue]

theorem run_sent {pre post : List Event} {m : World}
    (hpre : run step (opened accounts currentUser users) pre = some m)
    (hrun : run step (opened accounts currentUser users) (pre ++ .registerButtonPressed :: post) = some w) :
    ∃ call, w.calls[m.calls.length]? = some call ∧ call.Sent m pre post m.calls.length := by
  have hsynced := run_synced hpre
  refine EventRun.run_since (P := fun post w => ∃ call, w.calls[m.calls.length]? = some call ∧
    call.Sent m pre post m.calls.length) hpre (fun m' hpress => ?_) ?_ hrun
  · refine ⟨_, ?_, sent_press pre m _⟩
    rw [press_creates hsynced hpress]
    exact CallTable.getElem?_concat_eq_some.mpr (.inr ⟨rfl, rfl⟩)
  · rintro mid s e s' hmid - ⟨call, hcall, hsent⟩ hstep
    obtain ⟨call', hcall', hcaptured, hissued⟩ := step_request hstep hcall
    have hmem : ∀ request, request ∈ call'.issued ↔
        request ∈ call.issued ∨ e.request s m.calls.length call = some request := by
      intro request
      rw [hissued, List.mem_append, Option.mem_toList]
    refine ⟨call', hcall', hcaptured.trans hsent.captured, fun email password hnow => ?_,
      fun userID dataToBeAdded hnow => ?_, fun imageData => ?_⟩
    · rcases (hmem _).mp hnow with hold | hnew
      · exact hsent.createUser email password hold
      · rcases request_eq_some.mp hnew with ⟨_, _, heq⟩ | ⟨_, heq⟩ | ⟨_, _, heq⟩ <;> cases heq
    · rcases (hmem _).mp hnow with hold | hnew
      · exact hsent.setData userID dataToBeAdded hold
      · rcases request_eq_some.mp hnew with ⟨_, _, heq⟩ | ⟨_, heq⟩ | ⟨_, _, heq⟩ <;> cases heq
        rw [← hsynced.nameSurname, ← hsent.captured]
        rfl
    · rw [hmem, hsent.putData, request_eq_some, run_imageData hmid]
      constructor
      · rintro (⟨mid', uid, rest, rfl, rfl⟩ | ⟨uid, rfl, heq⟩ | ⟨_, heq⟩ | ⟨_, _, heq⟩)
        · exact ⟨mid', uid, rest ++ [e], by simp, rfl⟩
        · exact ⟨mid, uid, [], rfl, Request.putData.inj heq⟩
        · cases heq
        · cases heq
      · rintro ⟨mid', uid, rest, heq, rfl⟩
        rcases EventRun.concat_eq_append_cons.mp heq with ⟨_, rfl, rfl⟩ | ⟨rest', _, rfl⟩
        · exact .inr (.inl ⟨uid, rfl, rfl⟩)
        · exact .inl ⟨mid', uid, rest', rfl, rfl⟩

/-- **What a registration stores.** After a press, every request of its call is computed from the texts and the
photo of the press exactly when, if `createUser` succeeds for it, the photo selected by then has the bytes of
the one selected at the press. -/
theorem sends_form_iff {pre post : List Event} {m : World}
    (hpre : run step (opened accounts currentUser users) pre = some m)
    (hrun : run step (opened accounts currentUser users) (pre ++ .registerButtonPressed :: post) = some w) :
    ∃ call, w.calls[m.calls.length]? = some call ∧ (call.SendsForm m ↔
      ∀ mid uid rest, post = mid ++ .createUserCallback m.calls.length (.ok uid) :: rest →
        photoBytes (pre ++ .registerButtonPressed :: mid) = photoBytes pre) := by
  obtain ⟨call, hcall, hsent⟩ := run_sent hpre hrun
  refine ⟨call, hcall, ?_⟩
  rw [← run_imageData hpre]
  constructor
  · intro hform mid uid rest hpost
    exact hform _ ((hsent.putData _).mpr ⟨mid, uid, rest, hpost, rfl⟩)
  · intro hphoto request hmem
    cases request with
    | createUser email password => exact hsent.createUser email password hmem
    | putData imageData =>
      obtain ⟨mid, uid, rest, hpost, rfl⟩ := (hsent.putData imageData).mp hmem
      exact hphoto mid uid rest hpost
    | downloadURL => trivial
    | setData userID dataToBeAdded => exact hsent.setData userID dataToBeAdded hmem

end runs

/-- The filled form with its photo. -/
def filledForm : List Event :=
  [.editingChanged .email "a@b.c", .editingChanged .nameSurname "Ada", .editingChanged .password "secret",
    .didFinishPicking (some ⟨"first", some [1]⟩)]

/-- A name typed after the press does not reach the call. -/
theorem sends_form_of_edit : ∃ m w call,
    run step (opened [] none fun _ => none) filledForm = some m ∧
    run step (opened [] none fun _ => none) (filledForm ++ .registerButtonPressed ::
      [.editingChanged .nameSurname "Eve", .createUserCallback 0 (.ok "uid0")]) = some w ∧
    w.calls[0]? = some call ∧ call.SendsForm m := by
  have hpre : run step (opened [] none fun _ => none) filledForm = some _ := rfl
  have hrun : run step (opened [] none fun _ => none) (filledForm ++ .registerButtonPressed ::
    [.editingChanged .nameSurname "Eve", .createUserCallback 0 (.ok "uid0")]) = some _ := rfl
  obtain ⟨call, hcall, hform⟩ := sends_form_iff hpre hrun
  refine ⟨_, _, call, hpre, hrun, hcall, hform.mpr fun mid uid rest heq => ?_⟩
  have hpost : [.editingChanged .nameSurname "Eve"] ++ [.createUserCallback 0 (.ok "uid0")] =
    mid ++ .createUserCallback 0 (.ok uid) :: rest := heq
  rcases EventRun.concat_eq_append_cons.mp hpost with ⟨_, rfl, _⟩ | ⟨rest', _, hedit⟩
  · rfl
  · simp [List.singleton_eq_append_iff] at hedit

/-- Another photo picked before `createUser` answers is uploaded for the press. -/
theorem later_photo_sent : ¬ ∀ (pre post : List Event) (m w : World),
    run step (opened [] none fun _ => none) pre = some m →
    run step (opened [] none fun _ => none) (pre ++ .registerButtonPressed :: post) = some w →
    ∀ call, w.calls[m.calls.length]? = some call → call.SendsForm m := by
  intro h
  have hform := h filledForm [.registerHudDelay, .didFinishPicking (some ⟨"second", some [2]⟩),
    .createUserCallback 0 (.ok "uid0")] _ _ rfl rfl _ rfl
  have hbytes : ([2] : Data) = [1] := hform (.putData [2]) (List.mem_of_getElem? (i := 1) rfl)
  cases hbytes

end CloneProjects.Tinder.Register
