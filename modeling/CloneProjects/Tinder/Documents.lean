import CloneProjects.Tinder.Service
import CloneProjects.Tinder.Settings.Buffer
import CloneProjects.Tinder.Settings.Saving

/-!
# What the documents keep

`J` is said of the users that the Settings screens hold, `O` of the documents, stored or on their way. If reading a
document, editing a user and writing one keep the two, then every document of the service satisfies `O`, every card
shows one that does, and every query asks between the ages of one that does (`deviceStep_sound`). The history of a
run may be part of `O`.
-/

namespace CloneProjects.Tinder

open CallTable (All)

/-! ### The screens -/

section screens
variable {accepts : String → Bool} {J : User → Prop} {S S' : String → Prop} {O O' : String → Infos → Prop}

/-- The user of a Settings controller, and the documents it has asked to write. -/
structure Settings.World.Sound (J : User → Prop) (O : String → Infos → Prop) (w : Settings.World) : Prop where
  currentUser : ∀ user, w.screen.currentUser = some user → J user
  saves : ∀ save ∈ w.saves, ∀ uid infos, save.request = some (uid, infos) → O uid infos

/-- The documents a Register controller is waiting to have written. -/
def Register.World.Sound (O : String → Infos → Prop) (w : Register.World) : Prop :=
  ∀ call ∈ w.calls, ∀ uid infos, call.awaiting = some (.setData uid infos) → O uid infos

/-- The main screen: its user was read from a document of an account signed in here, its queries ask between the
ages of such a document, and its cards are documents that match their query. -/
structure Main.World.Sound (accepts : String → Bool) (S : String → Prop) (O : String → Infos → Prop)
    (w : Main.World) : Prop where
  currentUser : ∀ user, w.screen.currentUser = some user → ∃ uid infos, S uid ∧ O uid infos ∧ user = User.init infos
  queries : All (fun _ query => ∃ uid infos, S uid ∧ O uid infos ∧
    (User.init infos).searchMinAge = some query.searchingMinAge ∧
    (User.init infos).searchMaxAge = some query.searchingMaxAge) w.queries
  deck : ∀ subview ∈ w.screen.profileMainView, ∃ uid infos, O uid infos ∧ subview.card = cardOf accepts infos ∧
    ∃ query, w.queries[subview.query]? = some query ∧ query.matches infos = true

theorem Main.World.Sound.mono {w : Main.World} (h : w.Sound accepts S O) (hS : ∀ uid, S uid → S' uid)
    (hO : ∀ uid infos, O uid infos → O' uid infos) : w.Sound accepts S' O' where
  currentUser user huser := by
    obtain ⟨uid, infos, hs, ho, heq⟩ := h.currentUser user huser
    exact ⟨uid, infos, hS uid hs, hO uid infos ho, heq⟩
  queries := h.queries.mono fun _ query hquery => by
    obtain ⟨uid, infos, hs, ho, hbounds⟩ := hquery
    exact ⟨uid, infos, hS uid hs, hO uid infos ho, hbounds⟩
  deck subview hsubview := by
    obtain ⟨uid, infos, ho, hcard⟩ := h.deck subview hsubview
    exact ⟨uid, infos, hO uid infos ho, hcard⟩

theorem Settings.World.Sound.mono {w : Settings.World} (h : w.Sound J O)
    (hO : ∀ uid infos, O uid infos → O' uid infos) : w.Sound J O' :=
  ⟨h.currentUser, fun save hsave uid infos hrequest => hO uid infos (h.saves save hsave uid infos hrequest)⟩

theorem Register.World.Sound.mono {w : Register.World} (h : w.Sound O)
    (hO : ∀ uid infos, O uid infos → O' uid infos) : w.Sound O' :=
  fun call hcall uid infos hawaiting => hO uid infos (h call hcall uid infos hawaiting)

/-- The user of a Settings screen was there before and edited, or was read off a stored document. -/
theorem Settings.step_user {w w' : Settings.World} {e : Settings.Event} (hstep : Settings.step accepts w e = some w') :
    w'.screen.currentUser = w.screen.currentUser.map (e.edit w) ∨
      ∃ uid infos, w.users uid = some infos ∧ w'.screen.currentUser = some (User.init infos) := by
  cases e with
  | loadCallback error =>
    obtain ⟨uid, _, rfl⟩ := Settings.step_loadCallback hstep
    rcases Settings.getByUserInfo_cases accepts w.screen (w.getDocument uid error) with ⟨infos, hok, heq⟩ | ⟨_, heq⟩
    · cases error with
      | some error => cases hok
      | none => exact .inr ⟨uid, infos, Except.ok.inj hok, by rw [heq]; rfl⟩
    · exact .inl (by simp [heq, Settings.Event.edit])
  | editText row text =>
    obtain ⟨cell, hcell, rfl⟩ := Settings.step_editText hstep
    left
    simp only [Settings.editText, Settings.Event.edit, hcell, Option.bind_some]
    cases cell.editingChanged <;> simp
  | moveMinSlider x =>
    obtain ⟨cell, hcell, rfl⟩ := Settings.step_moveMinSlider hstep
    left
    simp only [Settings.Event.edit, hcell]
    rfl
  | moveMaxSlider x =>
    obtain ⟨cell, hcell, rfl⟩ := Settings.step_moveMaxSlider hstep
    left
    simp only [Settings.Event.edit, hcell]
    rfl
  | downloadURLCallback k result =>
    obtain ⟨pick, hpick, _, rfl⟩ := Settings.step_downloadURLCallback hstep
    left
    cases result with
    | error error => simp [Settings.urlArrived, Settings.Event.edit]
    | ok url => simp only [Settings.urlArrived, Settings.Event.edit, hpick]
  | _ =>
    left
    rw [(Settings.step_frame hstep).user rfl]
    simp [Settings.Event.edit]

/-- A Save asks to write what the screen holds, and only what was asked for is stored. -/
theorem Settings.step_writes {w w' : Settings.World} {e : Settings.Event}
    (h : ∀ save ∈ w.saves, ∀ uid infos, save.request = some (uid, infos) → O uid infos)
    (hpress : e = .savePressed → ∀ uid, w.uid = some uid → O uid (Settings.datas uid w.screen.currentUser))
    (hstep : Settings.step accepts w e = some w') :
    (∀ save ∈ w'.saves, ∀ uid infos, save.request = some (uid, infos) → O uid infos) ∧
      ∀ uid infos, w'.users uid = some infos → w.users uid = some infos ∨ O uid infos := by
  rcases Settings.step_saves hstep with ⟨hsaves, husers⟩ | ⟨rfl, rfl⟩ | ⟨i, error, rfl⟩
  · refine ⟨?_, fun uid infos hstored => .inl (husers ▸ hstored)⟩
    rw [hsaves]
    exact h
  · unfold Settings.saveInfoButtonPressed
    split
    · refine ⟨fun save hsave => ?_, fun uid infos hstored => .inl hstored⟩
      rcases List.mem_append.mp hsave with hsave | hsave
      · exact h save hsave
      · rw [List.mem_singleton.mp hsave]
        intro uid infos hrequest
        cases hrequest
    · rename_i uid huid
      refine ⟨fun save hsave => ?_, fun uid infos hstored => .inl hstored⟩
      rcases List.mem_append.mp hsave with hsave | hsave
      · exact h save hsave
      · rw [List.mem_singleton.mp hsave]
        intro uid' infos hrequest
        cases hrequest
        exact hpress rfl uid huid
  · obtain ⟨save, uid, datas, hsave, hrequest, _, hcases⟩ := Settings.step_saveCallback hstep
    have hfinished : ∀ save' ∈ w.saves.modify i Settings.Save.finished, ∀ uid infos,
        save'.request = some (uid, infos) → O uid infos := by
      intro save' hsave'
      obtain ⟨j, hj⟩ := List.mem_iff_getElem?.mp hsave'
      rcases CallTable.getElem?_modify_eq_some.mp hj with ⟨_, hj⟩ | ⟨_, old, hold, rfl⟩
      · exact h save' (List.mem_of_getElem? hj)
      · exact h old (List.mem_of_getElem? hold)
    rcases hcases with ⟨_, _, rfl⟩ | ⟨_, rfl⟩
    · exact ⟨hfinished, fun _ _ hstored => .inl hstored⟩
    · refine ⟨hfinished, fun uid' infos hstored => ?_⟩
      dsimp only at hstored
      rw [Function.update_apply] at hstored
      split at hstored
      · rename_i heq
        cases hstored
        exact .inr (heq ▸ h save (List.mem_of_getElem? hsave) uid datas hrequest)
      · exact .inl hstored

theorem Settings.step_sound {w w' : Settings.World} {e : Settings.Event} (h : w.Sound J O)
    (hread : ∀ uid infos, w.users uid = some infos → J (User.init infos)) (hedit : ∀ user, J user → J (e.edit w user))
    (hpress : e = .savePressed → ∀ uid, w.uid = some uid → O uid (Settings.datas uid w.screen.currentUser))
    (hstep : Settings.step accepts w e = some w') :
    w'.Sound J O ∧ ∀ uid infos, w'.users uid = some infos → w.users uid = some infos ∨ O uid infos := by
  obtain ⟨hsaves, hstored⟩ := Settings.step_writes h.saves hpress hstep
  refine ⟨⟨fun user huser => ?_, hsaves⟩, hstored⟩
  rcases Settings.step_user hstep with hedited | ⟨uid, infos, hinfos, hread'⟩
  · rw [hedited] at huser
    obtain ⟨old, hold, rfl⟩ := Option.map_eq_some_iff.mp huser
    exact hedit old (h.currentUser old hold)
  · rw [hread'] at huser
    cases huser
    exact hread uid infos hinfos

theorem Register.step_sound {w w' : Register.World} {e : Register.Event} (h : w.Sound O)
    (hlocated : ∀ i imageURL call, e = .downloadURLCallback i (.ok imageURL) → w.calls[i]? = some call →
      O (w.currentUser.getD "") (call.captured.dataToBeAdded imageURL (w.currentUser.getD "")))
    (hstep : Register.step w e = some w') :
    w'.Sound O ∧ ∀ uid infos, w'.users uid = some infos → w.users uid = some infos ∨ O uid infos := by
  have hmodify : ∀ {i : ℕ} {f : Register.Call → Register.Call}, (∀ call uid infos, w.calls[i]? = some call →
      (f call).awaiting = some (.setData uid infos) → O uid infos) →
      ∀ call ∈ w.calls.modify i f, ∀ uid infos, call.awaiting = some (.setData uid infos) → O uid infos := by
    intro i f hf call hcall uid infos hawaiting
    obtain ⟨j, hj⟩ := List.mem_iff_getElem?.mp hcall
    rcases CallTable.getElem?_modify_eq_some.mp hj with ⟨_, hj⟩ | ⟨_, old, hold, rfl⟩
    · exact h call (List.mem_of_getElem? hj) uid infos hawaiting
    · exact hf old uid infos hold hawaiting
  cases Register.step_effect hstep with
  | screenOnly screen hout => exact ⟨h, fun _ _ hstored => .inl hstored⟩
  | pressed screen hemail =>
    refine ⟨fun call hcall => ?_, fun _ _ hstored => .inl hstored⟩
    rcases List.mem_append.mp hcall with hcall | hcall
    · exact h call hcall
    · rw [List.mem_singleton.mp hcall]
      intro uid infos hawaiting
      cases hawaiting
  | failed hawaiting hout =>
    exact ⟨hmodify fun _ _ _ _ h' => (by cases h'), fun _ _ hstored => .inl hstored⟩
  | accountCreated hawaiting hcan =>
    exact ⟨hmodify fun _ _ _ _ h' => (by cases h'), fun _ _ hstored => .inl hstored⟩
  | imageSaved hawaiting =>
    exact ⟨hmodify fun _ _ _ _ h' => (by cases h'), fun _ _ hstored => .inl hstored⟩
  | located hawaiting =>
    refine ⟨hmodify fun call uid infos hcall h' => ?_, fun _ _ hstored => .inl hstored⟩
    cases h'
    exact hlocated _ _ call rfl hcall
  | @userInfoSaved i userID dataToBeAdded hawaiting =>
    refine ⟨hmodify fun _ _ _ _ h' => (by cases h'), fun uid infos hstored => ?_⟩
    obtain ⟨call, hcall, hcallAwaits⟩ := Register.awaiting_eq_some.mp hawaiting
    simp only [Register.World.userInfoSaved, Register.World.complete, Function.update_apply] at hstored
    split at hstored
    · rename_i heq
      cases hstored
      exact .inr (heq ▸ h call (List.mem_of_getElem? hcall) userID dataToBeAdded hcallAwaits)
    · exact .inl hstored

/-- A new query asks between the ages of the user. -/
theorem Main.World.Sound.issue {w : Main.World} (h : w.Sound accepts S O) :
    w.getByUserInfoFromFirestore.Sound accepts S O := by
  rcases Main.getByUserInfoFromFirestore_cases w with ⟨_, _, hmin, hmax, heq⟩ | ⟨_, heq⟩
  · rw [heq]
    obtain ⟨user, huser, hmin⟩ := Option.bind_eq_some_iff.mp hmin
    rw [huser, Option.bind_some] at hmax
    obtain ⟨uid, infos, hs, ho, rfl⟩ := h.currentUser user huser
    refine ⟨h.currentUser, h.queries.concat ⟨uid, infos, hs, ho, hmin, hmax⟩, fun subview hsubview => ?_⟩
    obtain ⟨uid', infos', ho', hcard, query, hquery, hmatches⟩ := h.deck subview hsubview
    exact ⟨uid', infos', ho', hcard, query, CallTable.getElem?_concat_of hquery, hmatches⟩
  · rw [heq]
    exact h

theorem Main.step_sound {w w' : Main.World} {e : Main.Event} (h : w.Sound accepts S O)
    (hfetch : ∀ i infos, e = .fetchCallback i (.ok (some infos)) → ∃ uid, S uid ∧ O uid infos)
    (hquery : ∀ j documents query infos, e = .queryCallback j (.ok documents) → w.queries[j]? = some query →
      infos ∈ documents → (∃ uid, O uid infos) ∧ query.matches infos = true)
    (hstep : Main.step accepts w e = some w') : w'.Sound accepts S O := by
  cases e with
  | refreshPressed =>
    rw [Main.step_refreshPressed hstep]
    exact Main.World.Sound.issue ⟨h.currentUser, h.queries, fun subview hsubview => by cases hsubview⟩
  | settingsSaved =>
    cases hstep
    exact ⟨h.currentUser, h.queries, fun subview hsubview => by cases hsubview⟩
  | fetchCallback i response =>
    rw [Main.step_fetchCallback hstep, Main.World.userFetched]
    split
    · exact ⟨h.currentUser, h.queries, h.deck⟩
    · rename_i user huser
      refine Main.World.Sound.issue ⟨fun user' huser' => ?_, h.queries, h.deck⟩
      cases huser'
      cases response with
      | error error => cases huser
      | ok found =>
        cases found with
        | none => cases huser
        | some infos =>
          cases huser
          obtain ⟨uid, hs, ho⟩ := hfetch i infos rfl
          exact ⟨uid, infos, hs, ho, rfl⟩
  | queryCallback j response =>
    obtain ⟨⟨query, hj, _⟩, rfl⟩ := Main.step_queryCallback hstep
    have hmodify : ∀ {n : ℕ} {query' : Main.Query} {infos : Infos}, w.queries[n]? = some query' →
        query'.matches infos = true → ∃ query'', (w.queries.modify j fun query =>
          { query with pending := false, hudShown := false })[n]? = some query'' ∧ query''.matches infos = true :=
      fun hn hmatches => CallTable.exists_modify_of hn (fun _ => hmatches) fun _ => hmatches
    refine ⟨fun user huser => ?_, h.queries.modify fun _ _ hbounds => hbounds, fun subview hsubview => ?_⟩
    · dsimp only at huser
      rw [Main.profilesFetched_currentUser] at huser
      exact h.currentUser user huser
    · dsimp only at hsubview
      rw [Main.profilesFetched_profileMainView] at hsubview
      rcases List.mem_append.mp hsubview with hsubview | hsubview
      · obtain ⟨uid, infos, ho, hcard, query', hquery', hmatches⟩ := h.deck subview hsubview
        exact ⟨uid, infos, ho, hcard, hmodify hquery' hmatches⟩
      · cases response with
        | error error => cases hsubview
        | ok documents =>
          obtain ⟨infos, hinfos, rfl⟩ := List.mem_map.mp hsubview
          obtain ⟨⟨uid, ho⟩, hmatches⟩ := hquery j documents query infos rfl hj hinfos
          exact ⟨uid, infos, ho, rfl, hmodify hj hmatches⟩

end screens

namespace Service

variable {accepts : String → Bool} {J : User → Prop} {S S' : String → Prop} {P P' : ℕ → String → Prop}
  {O O' : String → Infos → Prop} {w w' : World} {d : ℕ} {device : Device} {uid : String} {infos : Infos}

/-! ### The service -/

/-- A device, on which `S` says which accounts have been signed in. -/
structure Device.Sound (accepts : String → Bool) (J : User → Prop) (S : String → Prop) (O : String → Infos → Prop)
    (device : Device) : Prop where
  settings : ∀ settings ∈ device.app.settings, settings.Sound J O
  registers : ∀ register ∈ device.registers, register.Sound O
  outbox : ∀ write ∈ device.outbox, O write.1 write.2
  asked : ∀ uid ∈ device.asked, S uid
  main : device.app.main.Sound accepts S O

structure World.Sound (accepts : String → Bool) (J : User → Prop) (P : ℕ → String → Prop)
    (O : String → Infos → Prop) (w : World) : Prop where
  stored : ∀ uid infos, w.users uid = some infos → O uid infos
  devices : All (fun d => Device.Sound accepts J (P d) O) w.devices

theorem Device.Sound.mono (h : device.Sound accepts J S O) (hS : ∀ uid, S uid → S' uid)
    (hO : ∀ uid infos, O uid infos → O' uid infos) : device.Sound accepts J S' O' where
  settings settings hsettings := (h.settings settings hsettings).mono hO
  registers register hregister := (h.registers register hregister).mono hO
  outbox write hwrite := hO write.1 write.2 (h.outbox write hwrite)
  asked uid huid := hS uid (h.asked uid huid)
  main := h.main.mono hS hO

theorem World.Sound.mono (h : w.Sound accepts J P O) (hP : ∀ d uid, P d uid → P' d uid)
    (hO : ∀ uid infos, O uid infos → O' uid infos) : w.Sound accepts J P' O' where
  stored uid infos hstored := hO uid infos (h.stored uid infos hstored)
  devices := h.devices.mono fun d _ hdevice => hdevice.mono (hP d) hO

theorem Device.Sound.pendingWrites (h : device.Sound accepts J S O) :
    ∀ write ∈ device.pendingWrites, O write.1 write.2 := by
  intro write hwrite
  rcases List.mem_append.mp hwrite with hwrite | hwrite
  · obtain ⟨settings, hsettings, hwrite⟩ := List.mem_flatMap.mp hwrite
    obtain ⟨save, hsave, hrequest⟩ := List.mem_filterMap.mp hwrite
    split at hrequest
    · exact (h.settings settings hsettings).saves save hsave write.1 write.2 hrequest
    · cases hrequest
  · obtain ⟨register, hregister, hwrite⟩ := List.mem_flatMap.mp hwrite
    obtain ⟨call, hcall, hrequest⟩ := List.mem_filterMap.mp hwrite
    split at hrequest
    · rename_i userID dataToBeAdded hawaiting
      cases hrequest
      exact h.registers register hregister call hcall userID dataToBeAdded hawaiting
    · cases hrequest

/-- One device moves. -/
theorem World.Sound.set {device' : Device} (h : w.Sound accepts J P O) (hdevice : device'.Sound accepts J (P d) O)
    (hdevices : w'.devices = w.devices.set d device')
    (hstored : ∀ uid infos, w'.users uid = some infos → w.users uid = some infos ∨ O uid infos) :
    w'.Sound accepts J P O := by
  refine ⟨fun uid infos h' => (hstored uid infos h').elim (h.stored uid infos) id, fun j device'' hj => ?_⟩
  rw [hdevices, List.getElem?_set] at hj
  split at hj
  · rename_i heq
    subst heq
    split at hj
    · cases hj
      exact hdevice
    · cases hj
  · exact h.devices j device'' hj

theorem sound_opened : opened.Sound accepts J P O :=
  ⟨fun uid infos h => (by cases h), CallTable.all_nil⟩

theorem main_viewDidLoad_sound (uid : Option String) : (Main.viewDidLoad uid).Sound accepts S O :=
  ⟨fun user huser => (by cases huser), CallTable.all_nil, fun subview hsubview => by cases hsubview⟩

/-- What a device writes: a press of Save what its screen holds, a registration its last request. -/
structure Device.Writes (J : User → Prop) (O : String → Infos → Prop) (device : Device) (x : DeviceEvent) : Prop where
  saved : ∀ k settings uid, x = .app (.settings k .savePressed) → device.app.settings[k]? = some settings →
    (∀ user, settings.screen.currentUser = some user → J user) → device.app.uid = some uid →
    O uid (Settings.datas uid settings.screen.currentUser)
  registered : ∀ k i imageURL register call, x = .register k (.downloadURLCallback i (.ok imageURL)) →
    device.registers[k]? = some register → register.calls[i]? = some call →
    O (device.app.uid.getD "") (call.captured.dataToBeAdded imageURL (device.app.uid.getD ""))

section step
variable (h : w.Sound accepts J P O) (hdevice : w.devices[d]? = some device)
  (hread : ∀ uid infos, O uid infos → J (User.init infos))
  (hedit : ∀ (e : Settings.Event) (w : Settings.World) (user : User), J user → J (e.edit w user))
  (hnow : ∀ uid, device.app.uid = some uid → P d uid)

include h hdevice hread hedit hnow in
/-- The app of a device steps. The answers it gets must have their origins. -/
theorem appStep_sound {x : App.Event} (hlocal : ∀ uid users, x ≠ .elsewhere uid users)
    (hsaved : ∀ k settings uid, x = .settings k .savePressed → device.app.settings[k]? = some settings →
      (∀ user, settings.screen.currentUser = some user → J user) → device.app.uid = some uid →
      O uid (Settings.datas uid settings.screen.currentUser))
    (hfetch : ∀ i infos, x = .main (.fetchCallback i (.ok (some infos))) → ∃ uid, P d uid ∧ O uid infos)
    (hquery : ∀ j documents query infos, x = .main (.queryCallback j (.ok documents)) →
      device.app.main.queries[j]? = some query → infos ∈ documents →
      (∃ uid, O uid infos) ∧ query.matches infos = true)
    (hstep : w.appStep accepts d device x = some w') : w'.Sound accepts J P O := by
  obtain ⟨app, happ, rfl⟩ := Option.map_eq_some_iff.mp hstep
  have hsound : device.Sound accepts J (P d) O := h.devices d device hdevice
  have hasked : ∀ uid ∈ device.asked ++ device.asks x, P d uid := by
    intro uid huid
    rcases List.mem_append.mp huid with huid | huid
    · exact hsound.asked uid huid
    · refine hnow uid ?_
      unfold Device.asks at huid
      split at huid
      · exact Option.mem_toList.mp huid
      · cases huid
  cases x with
  | pressSettingsButton =>
    cases happ
    refine h.set ?_ rfl fun uid infos hstored => .inl hstored
    refine ⟨fun settings hsettings => ?_, hsound.registers, hsound.outbox, hasked, hsound.main⟩
    rcases List.mem_append.mp hsettings with hsettings | hsettings
    · exact hsound.settings settings hsettings
    · rw [List.mem_singleton.mp hsettings]
      exact ⟨fun user huser => (by cases huser), fun save hsave => (by cases hsave)⟩
  | elsewhere uid users => exact absurd rfl (hlocal uid users)
  | main e' =>
    obtain ⟨main, hmain, rfl⟩ := App.step_main happ
    have hwithin : (device.app.main.within device.app.uid).Sound accepts (P d) O :=
      ⟨hsound.main.currentUser, hsound.main.queries, hsound.main.deck⟩
    refine h.set ?_ rfl fun uid infos hstored => .inl hstored
    refine ⟨hsound.settings, hsound.registers, hsound.outbox, hasked, ?_⟩
    exact Main.step_sound hwithin (fun i infos heq => hfetch i infos (congrArg _ heq))
      (fun j documents query infos heq => hquery j documents query infos (congrArg _ heq)) hmain
  | settings k e' =>
    obtain ⟨settings, settings', hsettings, hstep', rfl⟩ := App.step_settings happ
    have hold : settings.Sound J O := hsound.settings settings (List.mem_of_getElem? hsettings)
    have hwithin : (settings.within device.app.uid w.users).Sound J O := ⟨hold.currentUser, hold.saves⟩
    obtain ⟨hsound', hstored⟩ := Settings.step_sound hwithin
      (fun uid infos hinfos => hread uid infos (h.stored uid infos hinfos)) (fun user => hedit e' _ user)
      (fun heq uid huid => hsaved k settings uid (by rw [heq]) hsettings hold.currentUser huid) hstep'
    refine h.set ?_ rfl hstored
    refine ⟨fun settings'' hsettings'' => ?_, hsound.registers, hsound.outbox, hasked, hsound.main⟩
    obtain ⟨j, hj⟩ := List.mem_iff_getElem?.mp hsettings''
    rcases CallTable.getElem?_modify_eq_some.mp hj with ⟨_, hj⟩ | ⟨_, _, _, rfl⟩
    · exact hsound.settings settings'' (List.mem_of_getElem? hj)
    · exact hsound'

include h hdevice hread hedit hnow in
theorem deviceStep_sound {x : DeviceEvent} (hwrites : device.Writes J O x)
    (hstep : w.deviceStep accepts d device x = some w') : w'.Sound accepts J P O := by
  have hsound : device.Sound accepts J (P d) O := h.devices d device hdevice
  cases x with
  | launched =>
    cases hstep
    refine h.set ?_ rfl fun uid infos hstored => .inl hstored
    refine ⟨fun settings hsettings => (by cases hsettings), fun register hregister => (by cases hregister),
      fun write hwrite => ?_, fun uid huid => hnow uid (Option.mem_toList.mp huid), main_viewDidLoad_sound _⟩
    rcases List.mem_append.mp hwrite with hwrite | hwrite
    · exact hsound.outbox write hwrite
    · exact hsound.pendingWrites write hwrite
  | viewDidAppear =>
    cases hstep
    refine h.set ?_ rfl fun uid infos hstored => .inl hstored
    unfold Device.viewDidAppear
    split
    · refine ⟨hsound.settings, fun register hregister => ?_, hsound.outbox, hsound.asked, hsound.main⟩
      rcases List.mem_append.mp hregister with hregister | hregister
      · exact hsound.registers register hregister
      · rw [List.mem_singleton.mp hregister]
        intro call hcall
        cases hcall
    · exact hsound
  | app e' =>
    simp only [World.deviceStep] at hstep
    split at hstep
    · rename_i hlocal
      refine appStep_sound h hdevice hread hedit hnow (fun uid users heq => ?_)
        (fun k settings uid heq => hwrites.saved k settings uid (congrArg _ heq)) (fun i infos heq => ?_)
        (fun j documents query infos heq => ?_) hstep
      all_goals
        rw [heq] at hlocal
        cases hlocal
    · cases hstep
  | fetchAnswered i error =>
    obtain ⟨uid, hasked, hstep⟩ := Option.bind_eq_some_iff.mp hstep
    refine appStep_sound h hdevice hread hedit hnow (by simp) (by simp) (fun i' infos heq => ?_) (by simp) hstep
    refine ⟨uid, hsound.asked uid (List.mem_of_getElem? hasked), h.stored uid infos ?_⟩
    cases error with
    | none =>
      obtain ⟨_, hstored⟩ : i = i' ∧ w.users uid = some infos := by simpa using App.Event.main.inj heq
      exact hstored
    | some error => simp at heq
  | queryAnswered j answer =>
    cases answer with
    | error error =>
      exact appStep_sound h hdevice hread hedit hnow (by simp) (by simp) (by simp) (by simp) hstep
    | ok keys =>
      obtain ⟨query, hj, hstep⟩ := Option.bind_eq_some_iff.mp hstep
      split at hstep
      · rename_i hanswers
        refine appStep_sound h hdevice hread hedit hnow (by simp) (by simp) (by simp)
          (fun j' documents query' infos heq hj' hinfos => ?_) hstep
        obtain ⟨rfl, hdocuments⟩ := Main.Event.queryCallback.inj (App.Event.main.inj heq)
        cases hdocuments
        rw [hj, Option.some.injEq] at hj'
        subst hj'
        obtain ⟨key, hkey, hstored⟩ := List.mem_filterMap.mp hinfos
        have hmatches := hanswers.2 key hkey
        rw [hstored] at hmatches
        exact ⟨⟨key, h.stored key infos hstored⟩, hmatches⟩
      · cases hstep
  | register k e' =>
    simp only [World.deviceStep, Option.bind_eq_bind, Option.bind_eq_some_iff, Option.some.injEq] at hstep
    obtain ⟨register, hregister, register', hstep, rfl⟩ := hstep
    have hwithin : (register.within w.accounts device.app.uid w.users).Sound O :=
      hsound.registers register (List.mem_of_getElem? hregister)
    obtain ⟨hsound', hstored⟩ := Register.step_sound hwithin
      (fun i imageURL call heq hcall =>
        hwrites.registered k i imageURL register call (congrArg _ heq) hregister hcall) hstep
    refine h.set ?_ rfl hstored
    refine ⟨hsound.settings, fun register'' hregister'' => ?_, hsound.outbox, hsound.asked, hsound.main⟩
    rcases List.mem_or_eq_of_mem_set hregister'' with hregister'' | rfl
    · exact hsound.registers register'' hregister''
    · exact hsound'
  | outboxSent i accepted =>
    simp only [World.deviceStep, Option.bind_eq_bind, Option.bind_eq_some_iff, Option.some.injEq] at hstep
    obtain ⟨write, hwrite, rfl⟩ := hstep
    refine h.set ?_ rfl fun uid infos hstored => ?_
    · refine ⟨hsound.settings, hsound.registers, fun write' hwrite' => ?_, hsound.asked, hsound.main⟩
      exact hsound.outbox write' (List.mem_of_mem_eraseIdx hwrite')
    · dsimp only at hstored
      split at hstored
      · rw [Function.update_apply] at hstored
        split at hstored
        · rename_i heq
          cases hstored
          exact .inr (heq ▸ hsound.outbox write (List.mem_of_getElem? hwrite))
        · exact .inl hstored
      · exact .inl hstored

end step

theorem installed_sound (h : w.Sound accepts J P O) (hstep : step accepts w .installed = some w') :
    w'.Sound accepts J P O := by
  cases hstep
  refine ⟨h.stored, h.devices.concat ?_⟩
  exact ⟨fun settings hsettings => (by cases hsettings), fun register hregister => (by cases hregister),
    fun write hwrite => (by cases hwrite), fun uid huid => (by cases huid), main_viewDidLoad_sound none⟩

/-- What every writer keeps holds in every run. -/
theorem run_sound {es : List Event} (hread : ∀ uid infos, O uid infos → J (User.init infos))
    (hedit : ∀ (e : Settings.Event) (w : Settings.World) (user : User), J user → J (e.edit w user))
    (hwrites : ∀ (device : Device) (x : DeviceEvent), device.Writes J O x) :
    EventRun.run (step accepts) opened es = some w → w.Sound accepts J (fun _ _ => True) O := by
  refine EventRun.run_invariant (fun s e s' hs hstep => ?_) sound_opened
  cases e with
  | installed => exact installed_sound hs hstep
  | device d x =>
    obtain ⟨device, hdevice, hstep⟩ := Option.bind_eq_some_iff.mp hstep
    exact deviceStep_sound hs hdevice hread hedit (fun _ _ => trivial) (hwrites device x) hstep

end Service

end CloneProjects.Tinder
