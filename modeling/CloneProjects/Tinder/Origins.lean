import CloneProjects.Tinder.Documents
import CloneProjects.Tinder.Settings.Codec

/-!
# Where the documents and the cards come from

Every document of the service, stored or on its way, was written for the account signed in on the writing device:
by a press of Save or at the end of a registration (`Origin`). So every card on every deck is a profile its owner
saved, and every query asks between the ages its own user saved.
-/

namespace CloneProjects.Tinder

namespace Service

open EventRun (run)

variable {accepts : String → Bool} {es : List Event} {e : Event} {w w' : World} {d : ℕ} {device : Device}
  {uid : String} {infos : Infos}

/-- The account has been signed in on the device. -/
def SignedIn (accepts : String → Bool) (es : List Event) (d : ℕ) (uid : String) : Prop :=
  ∃ pre post m device, es = pre ++ post ∧ run (step accepts) opened pre = some m ∧ m.devices[d]? = some device ∧
    device.app.uid = some uid

/-- Save was pressed with the account signed in, on a Settings screen whose user was `currentUser`. -/
def SavedAt (accepts : String → Bool) (es : List Event) (uid : String) (currentUser : Option User) : Prop :=
  ∃ pre d k post m device settings, es = pre ++ .device d (.app (.settings k .savePressed)) :: post ∧
    run (step accepts) opened pre = some m ∧ m.devices[d]? = some device ∧ device.app.uid = some uid ∧
    device.app.settings[k]? = some settings ∧ settings.screen.currentUser = currentUser

/-- A registration reached its last request with the account signed in. -/
def RegisteredAt (accepts : String → Bool) (es : List Event) (uid : String) (viewModel : Register.RegisterViewModel)
    (imageURL : String) : Prop :=
  ∃ pre d k i post m device register call,
    es = pre ++ .device d (.register k (.downloadURLCallback i (.ok imageURL))) :: post ∧
    run (step accepts) opened pre = some m ∧ m.devices[d]? = some device ∧ device.app.uid.getD "" = uid ∧
    device.registers[k]? = some register ∧ register.calls[i]? = some call ∧ call.captured = viewModel

inductive Origin (accepts : String → Bool) (es : List Event) (uid : String) : Infos → Prop
  | saved (currentUser : Option User) (h : SavedAt accepts es uid currentUser) :
    Origin accepts es uid (Settings.datas uid currentUser)
  | registered (viewModel : Register.RegisterViewModel) (imageURL : String)
    (h : RegisteredAt accepts es uid viewModel imageURL) :
    Origin accepts es uid (viewModel.dataToBeAdded imageURL uid)

theorem SignedIn.concat (h : SignedIn accepts es d uid) : SignedIn accepts (es ++ [e]) d uid := by
  obtain ⟨pre, post, m, device, rfl, hrest⟩ := h
  exact ⟨pre, post ++ [e], m, device, by rw [List.append_assoc], hrest⟩

theorem Origin.concat (h : Origin accepts es uid infos) : Origin accepts (es ++ [e]) uid infos := by
  cases h with
  | saved currentUser h =>
    obtain ⟨pre, d, k, post, m, device, settings, rfl, hrest⟩ := h
    exact .saved currentUser ⟨pre, d, k, post ++ [e], m, device, settings, by simp, hrest⟩
  | registered viewModel imageURL h =>
    obtain ⟨pre, d, k, i, post, m, device, register, call, rfl, hrest⟩ := h
    exact .registered viewModel imageURL ⟨pre, d, k, i, post ++ [e], m, device, register, call, by simp, hrest⟩

/-- Only a save writes an age or a search range. -/
theorem Origin.saved_of_key (h : Origin accepts es uid infos) {key : String} (hkey : (infos key).isSome)
    (hoptional : key ∈ Settings.optionalKeys) :
    ∃ currentUser, SavedAt accepts es uid currentUser ∧ infos = Settings.datas uid currentUser := by
  cases h with
  | saved currentUser h => exact ⟨currentUser, h, rfl⟩
  | registered viewModel imageURL h =>
    have hnone : ∀ key ∈ Settings.optionalKeys, viewModel.dataToBeAdded imageURL uid key = none := by
      simp [Settings.optionalKeys, Register.RegisterViewModel.dataToBeAdded, dictionary, List.lookup_cons]
    rw [hnone key hoptional] at hkey
    cases hkey

/-- The service, as `Origin` sees it. -/
def World.HasOrigins (accepts : String → Bool) (es : List Event) (w : World) : Prop :=
  w.Sound accepts (fun _ => True) (SignedIn accepts es) (Origin accepts es)

theorem step_hasOrigins (hes : run (step accepts) opened es = some w) (h : w.HasOrigins accepts es)
    (hstep : step accepts w e = some w') : w'.HasOrigins accepts (es ++ [e]) := by
  have hlater : w.HasOrigins accepts (es ++ [e]) := h.mono (fun _ _ hs => hs.concat) fun _ _ ho => ho.concat
  cases e with
  | installed => exact installed_sound hlater hstep
  | device d x =>
    obtain ⟨device, hdevice, hstep⟩ := Option.bind_eq_some_iff.mp hstep
    refine deviceStep_sound hlater hdevice (fun _ _ _ => trivial) (fun _ _ _ _ => trivial)
      (fun uid huid => ⟨es, [.device d x], w, device, rfl, hes, hdevice, huid⟩) ⟨?_, ?_⟩ hstep
    · rintro k settings uid rfl hsettings _ huid
      exact .saved _ ⟨es, d, k, [], w, device, settings, rfl, hes, hdevice, huid, hsettings, rfl⟩
    · rintro k i imageURL register call rfl hregister hcall
      exact .registered _ imageURL ⟨es, d, k, i, [], w, device, register, call, rfl, hes, hdevice, rfl, hregister,
        hcall, rfl⟩

theorem run_hasOrigins : run (step accepts) opened es = some w → w.HasOrigins accepts es :=
  EventRun.run_induction (P := World.HasOrigins accepts) sound_opened
    fun _ _ _ _ hes h hstep => step_hasOrigins hes h hstep

/-- **Stored documents.** In every run of the service, over any number of devices: a document stored for an account
was written by a press of Save on a device with that account signed in, and encodes what the Settings screen held
then, or by a registration whose last request was made with that account signed in. -/
theorem stored_document_origin (hrun : run (step accepts) opened es = some w) (hstored : w.users uid = some infos) :
    (∃ currentUser, SavedAt accepts es uid currentUser ∧ infos = Settings.datas uid currentUser) ∨
      ∃ viewModel imageURL, RegisteredAt accepts es uid viewModel imageURL ∧
        infos = viewModel.dataToBeAdded imageURL uid := by
  cases (run_hasOrigins hrun).stored uid infos hstored with
  | saved currentUser h => exact .inl ⟨currentUser, h, rfl⟩
  | registered viewModel imageURL h => exact .inr ⟨viewModel, imageURL, h, rfl⟩

/-- One device: Ada registers. -/
def registration : List Event :=
  .installed :: [.viewDidAppear, .register 0 (.editingChanged .email "a@b.c"),
    .register 0 (.editingChanged .nameSurname "Ada"), .register 0 (.editingChanged .password "secret"),
    .register 0 .registerButtonPressed, .register 0 (.createUserCallback 0 (.ok "uid")),
    .register 0 (.putDataCallback 0 none), .register 0 (.downloadURLCallback 0 (.ok "https://host/image")),
    .register 0 (.setDataCallback 0 none)].map (.device 0)

/-- Nothing was saved, so Ada's document is the one of her registration. -/
theorem stored_document_origin_registration : ∃ w viewModel imageURL,
    run (step fun _ => true) opened registration = some w ∧
    RegisteredAt (fun _ => true) registration "uid" viewModel imageURL ∧
    w.users "uid" = some (viewModel.dataToBeAdded imageURL "uid") := by
  obtain ⟨w, infos, hrun, hstored⟩ : ∃ w infos, run (step fun _ => true) opened registration = some w ∧
      w.users "uid" = some infos := ⟨_, _, rfl, rfl⟩
  have hsaves : ∀ d k, Event.device d (.app (.settings k .savePressed)) ∉ registration := by simp [registration]
  rcases stored_document_origin hrun hstored with ⟨_, ⟨pre, d, k, post, _, _, _, hes, _⟩, _⟩ |
    ⟨viewModel, imageURL, hregistered, hinfos⟩
  · exact absurd (hes ▸ List.mem_append_right pre List.mem_cons_self) (hsaves d k)
  · exact ⟨w, viewModel, imageURL, hrun, hregistered, hstored.trans (congrArg some hinfos)⟩

theorem key_of_matches {query : Main.Query} (h : query.matches infos = true) : (infos "Age").isSome := by
  unfold Main.Query.matches at h
  split at h
  · simp [*]
  · simp [*]
  · cases h

theorem key_of_int {key : String} {n : ℤ} (h : infos.int key = some n) : (infos key).isSome := by
  obtain ⟨value, hvalue, _⟩ := Option.bind_eq_some_iff.mp h
  rw [hvalue]
  rfl

/-- A query brings a saved profile by its age, `-1` if it has none. -/
theorem matches_datas {query : Main.Query} {owner : String} {profile : Option User} :
    query.matches (Settings.datas owner profile) = true ↔
      query.searchingMinAge ≤ (profile.bind (·.age)).getD (-1) ∧
        (profile.bind (·.age)).getD (-1) ≤ query.searchingMaxAge := by
  simp [Main.Query.matches, Settings.datas, dictionary, List.lookup_cons]

/-- **The decks.** Every card on any deck is the profile that its owner's Settings screen held at a press of Save,
with an age between the bounds of the query it came from; and those bounds are the ages of a profile that an account
signed in on this very device had saved. -/
theorem deck_shows_saved_profiles (hrun : run (step accepts) opened es = some w)
    (hdevice : w.devices[d]? = some device) {subview : Main.Subview}
    (hsubview : subview ∈ device.app.main.screen.profileMainView) :
    ∃ (owner : String) (profile : Option User) (query : Main.Query), SavedAt accepts es owner profile ∧
      subview.card = cardOf accepts (Settings.datas owner profile) ∧
      device.app.main.queries[subview.query]? = some query ∧
      query.searchingMinAge ≤ (profile.bind (·.age)).getD (-1) ∧
      (profile.bind (·.age)).getD (-1) ≤ query.searchingMaxAge ∧
      ∃ (viewer : String) (saved : Option User), SignedIn accepts es d viewer ∧ SavedAt accepts es viewer saved ∧
        query.searchingMinAge = (saved.bind (·.searchMinAge)).getD (-1) ∧
        query.searchingMaxAge = (saved.bind (·.searchMaxAge)).getD (-1) := by
  have hmain := ((run_hasOrigins hrun).devices d device hdevice).main
  obtain ⟨owner, infos, ho, hcard, query, hquery, hmatches⟩ := hmain.deck subview hsubview
  obtain ⟨profile, hsaved, rfl⟩ := ho.saved_of_key (key_of_matches hmatches) (by decide)
  obtain ⟨viewer, infos', hviewer, ho', hmin, hmax⟩ := hmain.queries subview.query query hquery
  obtain ⟨saved, hsaved', rfl⟩ := ho'.saved_of_key (key_of_int hmin) (by decide)
  obtain ⟨hle, hge⟩ := matches_datas.mp hmatches
  exact ⟨owner, profile, query, hsaved, hcard, hquery, hle, hge, viewer, saved, hviewer, hsaved',
    (Option.some.inj hmin).symm, (Option.some.inj hmax).symm⟩

/-- Ada launches the app again and saves her Settings as they are: age and range are all `-1`, and the query brings
herself. -/
def firstSave : List Event :=
  registration ++ [.launched, .fetchAnswered 0 none, .app .pressSettingsButton,
    .app (.settings 0 (.loadCallback none)), .app (.settings 0 .savePressed),
    .app (.settings 0 (.saveCallback 0 none)), .app (.main .settingsSaved), .fetchAnswered 1 none,
    .queryAnswered 0 (.ok ["uid"])].map (.device 0)

/-- The query asks from `-1` to `-1`, so the profile on the card was saved without an age. -/
theorem deck_shows_saved_profiles_firstSave : ∃ w device subview owner profile viewer saved,
    run (step fun _ => true) opened firstSave = some w ∧ w.devices[0]? = some device ∧
    device.app.main.screen.profileMainView = [subview] ∧ SavedAt (fun _ => true) firstSave owner profile ∧
    subview.card = cardOf (fun _ => true) (Settings.datas owner profile) ∧ (profile.bind (·.age)).getD (-1) = -1 ∧
    SignedIn (fun _ => true) firstSave 0 viewer ∧ SavedAt (fun _ => true) firstSave viewer saved ∧
    (saved.bind (·.searchMinAge)).getD (-1) = -1 := by
  have hbounds : ((run (step fun _ => true) opened firstSave).bind (·.devices[0]?)).map (fun device =>
      device.app.main.screen.profileMainView.map fun subview =>
        device.app.main.queries[subview.query]?.map fun query => (query.searchingMinAge, query.searchingMaxAge)) =
      some [some (-1, -1)] := by decide +kernel
  obtain ⟨device, hbind, hdeck⟩ := Option.map_eq_some_iff.mp hbounds
  obtain ⟨w, hrun, hdevice⟩ := Option.bind_eq_some_iff.mp hbind
  obtain ⟨subview, hsubview, hasked⟩ := List.map_eq_singleton_iff.mp hdeck
  obtain ⟨owner, profile, query, hsaved, hcard, hquery, hle, hge, viewer, saved, hviewer, hsaved', hmin, _⟩ :=
    deck_shows_saved_profiles hrun hdevice (hsubview ▸ List.mem_singleton_self subview)
  rw [hquery, Option.map_some, Option.some.injEq, Prod.mk.injEq] at hasked
  obtain ⟨hasked, hasked'⟩ := hasked
  rw [hasked] at hle hmin
  rw [hasked'] at hge
  exact ⟨w, device, subview, owner, profile, viewer, saved, hrun, hdevice, hsubview, hsaved, hcard,
    le_antisymm hge hle, hviewer, hsaved', hmin.symm⟩

end Service

end CloneProjects.Tinder
