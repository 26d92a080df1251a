import CloneProjects.Tinder.Settings.Codec
import CloneProjects.Tinder.Settings.Saving

/-!
# Which photos a save stores

A pick shows its picture at once, its URL reaches the loaded user two callbacks later. So a save stores, for
each slot, the URL that arrived last (`Holds`), which is that of the picture on the button when the last
arrival was of that pick.
-/

namespace CloneProjects.Tinder.Settings

open EventRun (run lastOf)

/-- The slot a pick was made for. -/
def slotOf (picks : List Pick) (k : ℕ) : Option Slot := (picks[k]?).map (·.buttonSelectImage)

/-- The pick whose URL an event brings for a slot, and the URL. -/
def arrival (picks : List Pick) (slot : Slot) : Event → Option (ℕ × String)
  | .downloadURLCallback k (.ok url) => if slotOf picks k = some slot then some (k, url) else none
  | _ => none

/-- After a load of `infos` and the events since, the loaded user holds for each slot the URL that arrived
last, or else the loaded one. -/
structure Holds (infos : Infos) (after : List Event) (w : World) : Prop where
  made : ∀ k url, .downloadURLCallback k (.ok url) ∈ after → k < w.screen.picks.length
  user : ∃ user, w.screen.currentUser = some user ∧ ∀ slot : Slot, slot.imageURL user =
    ((lastOf (arrival w.screen.picks slot) after).map Prod.snd).or (infos.string slot.key)

section
variable {accepts : String → Bool} {uid : String} {users : String → Option Infos} {infos : Infos}
  {w w' : World} {e : Event} {slot : Slot}

theorem arrival_eq_some {picks : List Pick} {k : ℕ} {url : String} (h : arrival picks slot e = some (k, url)) :
    e = .downloadURLCallback k (.ok url) := by
  unfold arrival at h
  split at h
  · split at h
    · obtain ⟨rfl, rfl⟩ := Prod.mk.inj (Option.some.inj h)
      rfl
    · cases h
  · cases h

/-- Picks keep their place and their slot. -/
theorem step_slotOf (hstep : step accepts w e = some w') :
    w.screen.picks.length ≤ w'.screen.picks.length ∧
      ∀ k < w.screen.picks.length, slotOf w'.screen.picks k = slotOf w.screen.picks k := by
  rcases step_picks hstep with hsame | ⟨_, _, pick, _, _, heq⟩ | ⟨j, f, hf, heq⟩
  · rw [hsame]
    exact ⟨le_rfl, fun _ _ => rfl⟩
  · rw [heq]
    refine ⟨by simp, fun k hk => ?_⟩
    rw [slotOf, List.getElem?_append_left hk]
    rfl
  · rw [heq]
    refine ⟨by simp, fun k _ => ?_⟩
    rw [slotOf, slotOf, List.getElem?_modify]
    cases w.screen.picks[k]? with
    | none => rfl
    | some pick =>
      simp only [Option.map_eq_map, Option.map_some, Option.some.injEq]
      split
      · exact hf pick
      · rfl

/-- An event that is not an arrival for a slot leaves its URL. -/
theorem imageURL_edit (user : User) : slot.imageURL (e.edit w user) =
    ((arrival w.screen.picks slot e).map Prod.snd).or (slot.imageURL user) := by
  have hrange : ∀ cell : AgeRangeCell, slot.imageURL (cell.setRange user) = slot.imageURL user := by
    intro cell
    cases slot <;> rfl
  cases e with
  | editText row text =>
    simp only [Event.edit, arrival, Option.map_none, Option.none_or]
    cases (w.screen.textCell row).bind (·.editingChanged) with
    | none => rfl
    | some handler => cases handler <;> cases slot <;> rfl
  | moveMinSlider x =>
    simp only [Event.edit, arrival, Option.map_none, Option.none_or]
    cases w.screen.ageRangeCell with
    | none => rfl
    | some cell => exact hrange _
  | moveMaxSlider x =>
    simp only [Event.edit, arrival, Option.map_none, Option.none_or]
    cases w.screen.ageRangeCell with
    | none => rfl
    | some cell => exact hrange _
  | downloadURLCallback k result =>
    cases result with
    | error error => rfl
    | ok url =>
      cases hpick : w.screen.picks[k]? with
      | none => simp [Event.edit, arrival, slotOf, hpick]
      | some pick =>
        simp only [Event.edit, arrival, slotOf, hpick, Option.map_some, Option.some.injEq]
        split
        · rename_i hslot
          rw [hslot]
          cases slot <;> rfl
        · rename_i hslot
          simp only [Option.map_none, Option.none_or]
          cases slot <;> cases hother : pick.buttonSelectImage <;> first | rfl | exact absurd hother hslot
  | _ => rfl

theorem step_holds {after : List Event} (hstep : step accepts w e = some w') (hsession : Session uid w)
    (honce : (w.buffer uid).LoadsOnce) (h : Holds infos after w) : Holds infos (after ++ [e]) w' := by
  obtain ⟨hlength, hslots⟩ := step_slotOf hstep
  have hmade : ∀ k url, .downloadURLCallback k (.ok url) ∈ after ++ [e] → k < w.screen.picks.length := by
    intro k url hmem
    rcases List.mem_append.mp hmem with hmem | hmem
    · exact h.made k url hmem
    · rw [← List.mem_singleton.mp hmem] at hstep
      obtain ⟨pick, hpick, _⟩ := step_downloadURLCallback hstep
      exact (List.getElem?_eq_some_iff.mp hpick).1
  -- the events so far name old picks, whose slots the step keeps
  have harrival : ∀ slot, ∀ x ∈ after ++ [e], arrival w'.screen.picks slot x = arrival w.screen.picks slot x := by
    intro slot x hmem
    unfold arrival
    split
    · rename_i k url
      rw [hslots k (hmade k url hmem)]
    · rfl
  refine ⟨fun k url hmem => lt_of_lt_of_le (hmade k url hmem) hlength, ?_⟩
  obtain ⟨user, huser, hurl⟩ := h.user
  refine ⟨_, step_currentUser hstep hsession honce huser, fun slot => ?_⟩
  rw [EventRun.lastOf_congr (harrival slot), EventRun.lastOf_concat, imageURL_edit, hurl]
  cases arrival w.screen.picks slot e <;> rfl

theorem run_holds {before after : List Event} {l m : World}
    (hbefore : run (step accepts) (opened (some uid) users) before = some l) (hstored : l.users uid = some infos)
    (hrun : run (step accepts) (opened (some uid) users) (before ++ .loadCallback none :: after) = some m) :
    Holds infos after m := by
  refine EventRun.run_since (P := Holds infos) hbefore (fun l' hload => ?_) (fun _ _ _ _ hes _ h hstep =>
    step_holds hstep (run_session hes) (run_loadsOnce hes) h) hrun
  refine ⟨by simp, User.init infos, ?_, fun slot => ?_⟩
  · rw [step_loaded hload (run_session hbefore) hstored]
    rfl
  · cases slot <;> rfl

theorem datas_imageURL (user : User) :
    datas uid (some user) slot.key = some (.string ((slot.imageURL user).getD "")) := by
  cases slot <;> rfl

/-- The URL that arrived last for a slot is that of the picture its button shows; if the button shows no pick,
none has arrived and the loaded document had one. -/
def ShownArrived (infos : Infos) (after : List Event) (w : World) (slot : Slot) : Prop :=
  match w.screen.buttonImage slot with
  | .picked k => ∃ url, lastOf (arrival w.screen.picks slot) after = some (k, url)
  | _ => lastOf (arrival w.screen.picks slot) after = none ∧ (infos.string slot.key).isSome

/-- **Which photos a save stores.** In every run in which the load brought `infos`, a Save was pressed after the
events `after` and it is the last one applied: for each slot whose shown picture is the one that arrived last
when Save was pressed, the stored URL is that of the upload of this picture, or the loaded one if the button
shows no pick. -/
theorem save_stores_shown_photos {before after mid post : List Event} {l m w : World}
    (hbefore : run (step accepts) (opened (some uid) users) before = some l) (hstored : l.users uid = some infos)
    (hpress : run (step accepts) (opened (some uid) users) (before ++ .loadCallback none :: after) = some m)
    (hrun : run (step accepts) (opened (some uid) users) ((before ++ .loadCallback none :: after) ++
      .savePressed :: (mid ++ .saveCallback m.saves.length none :: post)) = some w)
    (hpost : ∀ i, .saveCallback i none ∉ post) :
    ∃ stored, w.users uid = some stored ∧ ∀ slot, ShownArrived infos after m slot →
      (∀ k, m.screen.buttonImage slot = .picked k →
        ∃ url, .downloadURLCallback k (.ok url) ∈ after ∧ stored slot.key = some (.string url)) ∧
      ((∀ k, m.screen.buttonImage slot ≠ .picked k) → stored slot.key = infos slot.key) := by
  obtain ⟨user, huser, hurl⟩ := (run_holds hbefore hstored hpress).user
  refine ⟨_, save_lands_in_session hpress hrun hpost, fun slot hshown => ?_⟩
  have hwritten : datas uid m.screen.currentUser slot.key = some (.string ((((lastOf
      (arrival m.screen.picks slot) after).map Prod.snd).or (infos.string slot.key)).getD "")) := by
    rw [huser, datas_imageURL, hurl]
  rw [hwritten]
  unfold ShownArrived at hshown
  split at hshown
  · rename_i k hk
    refine ⟨fun k' hk' => ?_, fun hnone => absurd hk (hnone k)⟩
    obtain rfl : k = k' := ButtonImage.picked.inj (hk.symm.trans hk')
    obtain ⟨url, hlast⟩ := hshown
    obtain ⟨pre, e, post, rfl, he, _⟩ := EventRun.lastOf_eq_some.mp hlast
    refine ⟨url, ?_, by rw [hlast]; rfl⟩
    rw [← arrival_eq_some he]
    simp
  · rename_i hother
    refine ⟨fun k hk => absurd hk (hother k), fun _ => ?_⟩
    obtain ⟨hlast, hloaded⟩ := hshown
    obtain ⟨url, hloaded⟩ := Option.isSome_iff_exists.mp hloaded
    rw [hlast, hloaded, Infos.string_eq_some.mp hloaded]
    rfl

end

/-- A new photo for the first slot, uploaded before Save is pressed. -/
def uploadedPhoto : List Event :=
  [.pick .area1 (some ⟨"new", some [0]⟩), .putDataCallback 0 none, .downloadURLCallback 0 (.ok "https://host/new")]

theorem save_stores_uploadedPhoto : ∃ m w stored,
    run (step fun _ => true) (opened (some "uid") storedUsers) (.loadCallback none :: uploadedPhoto) = some m ∧
    run (step fun _ => true) (opened (some "uid") storedUsers)
      ((.loadCallback none :: uploadedPhoto) ++ [.savePressed, .saveCallback 0 none]) = some w ∧
    m.screen.buttonImage .area1 = .picked 0 ∧ w.users "uid" = some stored ∧
    stored "ImageURL" = some (.string "https://host/new") := by
  have hpress : run (step fun _ => true) (opened (some "uid") storedUsers)
      ([] ++ .loadCallback none :: uploadedPhoto) = some _ := rfl
  have hrun : run (step fun _ => true) (opened (some "uid") storedUsers)
      (([] ++ .loadCallback none :: uploadedPhoto) ++ .savePressed :: ([] ++ .saveCallback 0 none :: [])) =
        some _ := rfl
  obtain ⟨stored, hstored, hslots⟩ := save_stores_shown_photos EventRun.run_nil rfl hpress hrun (by simp)
  obtain ⟨url, hmem, hurl⟩ := (hslots .area1 ⟨"https://host/new", rfl⟩).1 0 rfl
  refine ⟨_, _, stored, hpress, hrun, rfl, hstored, ?_⟩
  obtain rfl : url = "https://host/new" := by simpa [uploadedPhoto] using hmem
  exact hurl

/-- Save pressed while the upload is under way: the old photo stays stored. -/
theorem save_before_upload_stores_old : ¬ ∀ (before after mid post : List Event) (l m w : World) (infos : Infos),
    run (step fun _ => true) (opened (some "uid") storedUsers) before = some l → l.users "uid" = some infos →
    run (step fun _ => true) (opened (some "uid") storedUsers) (before ++ .loadCallback none :: after) = some m →
    run (step fun _ => true) (opened (some "uid") storedUsers) ((before ++ .loadCallback none :: after) ++
      .savePressed :: (mid ++ .saveCallback m.saves.length none :: post)) = some w →
    (∀ i, .saveCallback i none ∉ post) → ∃ stored, w.users "uid" = some stored ∧ ∀ slot : Slot,
      (∀ k, m.screen.buttonImage slot = .picked k →
        ∃ url, .downloadURLCallback k (.ok url) ∈ after ++ mid ++ post ∧ stored slot.key = some (.string url)) ∧
      ((∀ k, m.screen.buttonImage slot ≠ .picked k) → stored slot.key = infos slot.key) := by
  intro h
  obtain ⟨stored, hstored, hslots⟩ := h [] [.pick .area1 (some ⟨"new", some [0]⟩), .putDataCallback 0 none] []
    [.downloadURLCallback 0 (.ok "https://host/new")] _ _ _ storedProfile rfl rfl rfl rfl (by simp)
  obtain ⟨url, hmem, hurl⟩ := (hslots .area1).1 0 rfl
  obtain rfl : url = "https://host/new" := by simpa using hmem
  obtain rfl : datas "uid" (some (User.init storedProfile)) = stored := Option.some.inj hstored
  have hold : some (FieldValue.string "https://host/image") = some (.string "https://host/new") := hurl
  simp at hold

end CloneProjects.Tinder.Settings
