import CloneProjects.Tinder.App

/-!
# The progress HUDs

A HUD shown by a Save, a photo upload or a profile query is gone when its last callback has fired, with two
exceptions: a Save shows its HUD before it looks for a signed-in user, and a failed `putData` returns before
the line that dismisses. A HUD with no callback to come is stuck for good (`Unblocked`).
-/

namespace CloneProjects.Tinder.Settings

open CallTable (All)

/-- A callback of the upload is to come. -/
def UploadStage.waits : UploadStage → Bool
  | .putData _ | .downloadURL => true
  | .notStarted | .finished => false

/-- A HUD that is shown still has a callback to come. -/
def Pick.Unblocked (pick : Pick) : Prop := pick.hudShown = true → pick.stage.waits = true

def Save.Unblocked (save : Save) : Prop := save.hudShown = true → save.pending = true

def World.Unblocked (w : World) : Prop :=
  All (fun _ save => save.Unblocked) w.saves ∧ All (fun _ pick => pick.Unblocked) w.screen.picks

/-- The HUD of an upload is up while the upload waits. -/
def World.UploadsShown (w : World) : Prop :=
  All (fun _ pick => pick.stage.waits = true → pick.hudShown = true) w.screen.picks

/-- The event leaves no HUD behind: a Save finds a signed-in user, and `putData` does not fail. -/
def KeepsHud (uid : Option String) : Event → Prop
  | .savePressed => uid.isSome
  | .putDataCallback _ (some _) => False
  | _ => True

section
variable {accepts : String → Bool} {w w' : World} {e : Event}

theorem step_uploadsShown (h : w.UploadsShown) (hstep : step accepts w e = some w') : w'.UploadsShown := by
  cases e with
  | pick slot selectedImage =>
    obtain rfl : _ = w' := Option.some.inj hstep
    refine h.concat ?_
    split <;> simp [UploadStage.waits]
  | putDataCallback k error =>
    obtain ⟨pick, data, hpick, hstage, rfl⟩ := step_putDataCallback hstep
    refine h.modify fun pick' hpick' hshown => ?_
    rw [hpick] at hpick'
    cases hpick'
    cases error with
    | some error => simp [Pick.putDataCallback, UploadStage.waits]
    | none => exact fun _ => hshown (by rw [hstage]; rfl)
  | downloadURLCallback k result =>
    obtain ⟨_, _, _, rfl⟩ := step_downloadURLCallback hstep
    exact h.modify fun _ _ _ => by simp [UploadStage.waits]
  | _ =>
    rw [World.UploadsShown, (step_frame hstep).picks rfl]
    exact h

/-- A step leaves a HUD stuck exactly when it is one of the two exceptions, and unsticks none. -/
theorem step_unblocked (hshown : w.UploadsShown) (hstep : step accepts w e = some w') :
    w'.Unblocked ↔ w.Unblocked ∧ KeepsHud w.uid e := by
  cases e with
  | savePressed =>
    rw [step_savePressed hstep]
    cases huid : w.uid with
    | none => simp [World.Unblocked, saveInfoButtonPressed, huid, CallTable.all_concat_iff, Save.Unblocked, KeepsHud]
    | some uid =>
      simp [World.Unblocked, saveInfoButtonPressed, huid, CallTable.all_concat_iff, Save.Unblocked, KeepsHud]
  | saveCallback i error =>
    obtain ⟨save, _, _, hsave, _, hpending, hw'⟩ := step_saveCallback hstep
    have hkeep : All (fun _ save => save.Unblocked) (w.saves.modify i Save.finished) ↔
        All (fun _ save => save.Unblocked) w.saves :=
      CallTable.all_modify_iff_of hsave (fun _ => hpending) fun hshown => by cases hshown
    refine Iff.trans ?_ (and_iff_left trivial).symm
    rcases hw' with ⟨_, _, rfl⟩ | ⟨_, rfl⟩
    · exact and_congr_left fun _ => hkeep
    · exact and_congr_left fun _ => hkeep
  | pick slot selectedImage =>
    obtain rfl : _ = w' := Option.some.inj hstep
    refine Iff.trans ?_ (and_iff_left trivial).symm
    refine and_congr_right fun _ => CallTable.all_concat_iff.trans (and_iff_left ?_)
    split <;> simp [Pick.Unblocked, UploadStage.waits]
  | putDataCallback k error =>
    obtain ⟨pick, data, hpick, hstage, rfl⟩ := step_putDataCallback hstep
    have hwaits : pick.stage.waits = true := by
      rw [hstage]
      rfl
    cases error with
    | some error =>
      have hstuck : All (fun _ pick => pick.Unblocked)
            (w.screen.picks.modify k (Pick.putDataCallback (some error))) ↔
          All (fun _ pick => pick.Unblocked) w.screen.picks ∧ False :=
        CallTable.all_modify_iff hpick
          (by simp [Pick.Unblocked, Pick.putDataCallback, UploadStage.waits, hshown k pick hpick hwaits])
      simp only [World.Unblocked, hstuck, KeepsHud, and_false]
    | none =>
      refine Iff.trans ?_ (and_iff_left trivial).symm
      exact and_congr_right fun _ => CallTable.all_modify_iff_of hpick (fun _ => hwaits) fun _ => rfl
  | downloadURLCallback k result =>
    obtain ⟨pick, hpick, hstage, rfl⟩ := step_downloadURLCallback hstep
    have hwaits : pick.stage.waits = true := by
      rw [hstage]
      rfl
    refine Iff.trans ?_ (and_iff_left trivial).symm
    exact and_congr_right fun _ => CallTable.all_modify_iff_of hpick (fun _ => hwaits) fun hshown => by cases hshown
  | _ =>
    have hframe := step_frame hstep
    rw [World.Unblocked, (hframe.store rfl).2, hframe.picks rfl]
    exact (and_iff_left trivial).symm

end

end CloneProjects.Tinder.Settings

namespace CloneProjects.Tinder.Main

open CallTable (All)

/-- A profile query's HUD is up only while its callback is to come. -/
def World.Unblocked (w : World) : Prop := All (fun _ query => query.hudShown = true → query.pending = true) w.queries

section
variable {accepts : String → Bool} {w w' : World} {e : Event}

/-- The guard of `getByUserInfoFromFirestore` comes before its HUD. -/
theorem getByUserInfoFromFirestore_unblocked (h : w.Unblocked) : w.getByUserInfoFromFirestore.Unblocked := by
  rcases getByUserInfoFromFirestore_cases w with ⟨_, _, _, _, hissued⟩ | ⟨_, hguard⟩
  · rw [hissued]
    exact h.concat fun _ => rfl
  · rw [hguard]
    exact h

theorem step_unblocked (h : w.Unblocked) (hstep : step accepts w e = some w') : w'.Unblocked := by
  cases e with
  | refreshPressed =>
    rw [step_refreshPressed hstep]
    exact getByUserInfoFromFirestore_unblocked h
  | settingsSaved =>
    obtain rfl : _ = w' := Option.some.inj hstep
    exact h
  | fetchCallback i response =>
    rw [step_fetchCallback hstep, World.userFetched]
    split
    · exact h
    · exact getByUserInfoFromFirestore_unblocked h
  | queryCallback j response =>
    obtain ⟨_, rfl⟩ := step_queryCallback hstep
    exact h.modify fun _ _ _ hshown => by cases hshown

end

end CloneProjects.Tinder.Main

namespace CloneProjects.Tinder.App

open EventRun (run Guarded)

/-- No HUD of the app is stuck. -/
def World.Unblocked (app : World) : Prop := ∀ w ∈ app.settings, w.Unblocked

/-- No Save, no upload and no profile query has a callback to come. -/
structure World.Quiet (app : World) : Prop where
  saves : ∀ w ∈ app.settings, ∀ save ∈ w.saves, save.pending = false
  uploads : ∀ w ∈ app.settings, ∀ pick ∈ w.screen.picks, pick.stage.waits = false
  queries : ∀ query ∈ app.main.queries, query.pending = false

/-- Every HUD of the three operations has been dismissed. -/
structure World.HudsDismissed (app : World) : Prop where
  saves : ∀ w ∈ app.settings, ∀ save ∈ w.saves, save.hudShown = false
  uploads : ∀ w ∈ app.settings, ∀ pick ∈ w.screen.picks, pick.hudShown = false
  queries : ∀ query ∈ app.main.queries, query.hudShown = false

/-- The event is no Save without a signed-in user and no failure of `putData`. -/
def KeepsHud (app : World) : Event → Prop
  | .settings _ e => Settings.KeepsHud app.uid e
  | _ => True

section
variable {accepts : String → Bool} {app app' : World} {e : Event}

/-- What holds whatever happens: uploads that wait show their HUD, and no query's HUD is stuck. -/
structure World.Sound (app : World) : Prop where
  uploadsShown : ∀ w ∈ app.settings, w.UploadsShown
  queries : app.main.Unblocked

theorem step_sound (h : app.Sound) (hstep : step accepts app e = some app') : app'.Sound := by
  cases e with
  | pressSettingsButton =>
    obtain rfl : _ = app' := Option.some.inj hstep
    refine ⟨fun w hmem => ?_, h.queries⟩
    rcases List.mem_append.mp hmem with hmem | hmem
    · exact h.uploadsShown w hmem
    · rw [List.mem_singleton.mp hmem]
      exact CallTable.all_nil
  | settings k e =>
    obtain ⟨w, w', hw, hstep', rfl⟩ := step_settings hstep
    have hw' : w'.UploadsShown := Settings.step_uploadsShown (w := w.within app.uid app.users)
      (h.uploadsShown w (List.mem_of_getElem? hw)) hstep'
    have hall := CallTable.all_iff_mem.mpr h.uploadsShown
    exact ⟨CallTable.all_iff_mem.mp (hall.modify fun _ _ _ => hw'), h.queries⟩
  | main e =>
    obtain ⟨main, hstep', rfl⟩ := step_main hstep
    exact ⟨h.uploadsShown, Main.step_unblocked (w := app.main.within app.uid) h.queries hstep'⟩
  | elsewhere uid users =>
    obtain rfl : _ = app' := Option.some.inj hstep
    exact ⟨h.uploadsShown, h.queries⟩

/-- A step sticks a HUD exactly when it is a Save without a user or a failed `putData`. -/
theorem step_unblocked (h : app.Sound) (hstep : step accepts app e = some app') :
    app'.Unblocked ↔ app.Unblocked ∧ KeepsHud app e := by
  cases e with
  | pressSettingsButton =>
    obtain rfl : _ = app' := Option.some.inj hstep
    refine Iff.trans ?_ (and_iff_left trivial).symm
    have hopened : (Settings.opened app.uid app.users).Unblocked := ⟨CallTable.all_nil, CallTable.all_nil⟩
    simp [World.Unblocked, or_imp, forall_and, hopened]
  | settings k e =>
    obtain ⟨w, w', hw, hstep', rfl⟩ := step_settings hstep
    have hw' : w'.Unblocked ↔ w.Unblocked ∧ Settings.KeepsHud app.uid e :=
      Settings.step_unblocked (w := w.within app.uid app.users) (h.uploadsShown w (List.mem_of_getElem? hw)) hstep'
    rw [World.Unblocked, World.Unblocked, ← CallTable.all_iff_mem, ← CallTable.all_iff_mem]
    exact CallTable.all_modify_iff hw hw'
  | main e =>
    obtain ⟨main, _, rfl⟩ := step_main hstep
    exact (and_iff_left trivial).symm
  | elsewhere uid users =>
    obtain rfl : _ = app' := Option.some.inj hstep
    exact (and_iff_left trivial).symm

/-- Once every callback has fired, the HUDs that are not stuck are gone. -/
theorem World.Quiet.dismissed_iff (hquiet : app.Quiet) (h : app.Sound) : app.HudsDismissed ↔ app.Unblocked := by
  have hblocked : ∀ {shown waits : Bool}, waits = false → ((shown = true → waits = true) ↔ shown = false) := by
    rintro shown waits rfl
    cases shown <;> simp
  constructor
  · intro hdismissed w hmem
    exact ⟨CallTable.all_iff_mem.mpr fun save hsave =>
        (hblocked (hquiet.saves w hmem save hsave)).mpr (hdismissed.saves w hmem save hsave),
      CallTable.all_iff_mem.mpr fun pick hpick =>
        (hblocked (hquiet.uploads w hmem pick hpick)).mpr (hdismissed.uploads w hmem pick hpick)⟩
  · intro hunblocked
    refine ⟨fun w hmem save hsave => ?_, fun w hmem pick hpick => ?_, fun query hquery => ?_⟩
    · exact (hblocked (hquiet.saves w hmem save hsave)).mp
        (CallTable.all_iff_mem.mp (hunblocked w hmem).1 save hsave)
    · exact (hblocked (hquiet.uploads w hmem pick hpick)).mp
        (CallTable.all_iff_mem.mp (hunblocked w hmem).2 pick hpick)
    · exact (hblocked (hquiet.queries query hquery)).mp (CallTable.all_iff_mem.mp h.queries query hquery)

end

section runs
variable {accepts : String → Bool} {uid : Option String} {users : String → Option Infos} {es : List Event}
  {app : World}

theorem run_sound (hrun : run (step accepts) (opened uid users) es = some app) : app.Sound := by
  refine EventRun.run_invariant (P := World.Sound) (fun _ _ _ h hstep => step_sound h hstep) ⟨?_, ?_⟩ hrun
  · simp [opened]
  · exact CallTable.all_nil

/-- **The progress HUDs.** In every reachable state with no Save, upload or query callback to come, every HUD has
been dismissed exactly when, in the run, every Save found a signed-in user and no `putData` failed. -/
theorem huds_dismissed_iff (hrun : run (step accepts) (opened uid users) es = some app) (hquiet : app.Quiet) :
    app.HudsDismissed ↔ Guarded (step accepts) (fun _ => KeepsHud) (opened uid users) es := by
  rw [hquiet.dismissed_iff (run_sound hrun)]
  refine EventRun.holds_iff_guarded (C := fun _ => KeepsHud) (P := World.Unblocked) ?_
    (fun _ _ _ _ hes hstep => step_unblocked (run_sound hes) hstep) hrun
  simp [World.Unblocked, opened]

end runs

/-- A photo is picked on the Settings screen of a signed-in user, and its upload starts. -/
def photoPicked : List Event := [.pressSettingsButton, .settings 0 (.pick .area1 (some ⟨"photo", some [1]⟩))]

/-- The upload succeeds. -/
def photoUploaded : List Event :=
  photoPicked ++ [.settings 0 (.putDataCallback 0 none),
    .settings 0 (.downloadURLCallback 0 (.ok "https://host/image"))]

/-- A Save after the upload leaves no HUD either. -/
theorem photoSaved_huds_dismissed : ∃ app, run (step (· ≠ "")) (opened (some "uid0") fun _ => none)
    (photoUploaded ++ [.settings 0 .savePressed] ++ [.settings 0 (.saveCallback 0 none)]) = some app ∧
      app.HudsDismissed := by
  have hrun : run (step (· ≠ "")) (opened (some "uid0") fun _ => none)
    (photoUploaded ++ [.settings 0 .savePressed] ++ [.settings 0 (.saveCallback 0 none)]) = some _ := rfl
  refine ⟨_, hrun, (huds_dismissed_iff hrun ⟨by decide, by decide, by decide⟩).mpr ?_⟩
  have hsaving := (EventRun.guarded_concat (C := fun _ => KeepsHud) (e := .settings 0 .savePressed)
    (rfl : run (step (· ≠ "")) (opened (some "uid0") fun _ => none) photoUploaded = some _)).mpr
    ⟨EventRun.guarded_of_forall fun e hmem pre s => ?_, rfl⟩
  · exact (EventRun.guarded_concat rfl).mpr ⟨hsaving, trivial⟩
  · simp only [photoUploaded, photoPicked, List.cons_append, List.nil_append, List.mem_cons, List.not_mem_nil,
      or_false] at hmem
    rcases hmem with rfl | rfl | rfl | rfl <;> trivial

/-- The HUD of an upload whose `putData` fails stays. -/
theorem failed_upload_keeps_hud : ¬ ∀ es app,
    run (step (· ≠ "")) (opened (some "uid0") fun _ => none) es = some app → app.Quiet → app.HudsDismissed := by
  intro h
  have hdismissed := h (photoPicked ++ [.settings 0 (.putDataCallback 0 (some ⟨"offline"⟩))]) _ rfl ?_
  · have hshown := hdismissed.uploads _ (List.mem_singleton_self _) _ (List.mem_singleton_self _)
    cases hshown
  · exact ⟨by decide, by decide, by decide⟩

end CloneProjects.Tinder.App
