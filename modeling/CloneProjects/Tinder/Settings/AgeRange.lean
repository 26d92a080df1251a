import CloneProjects.Tinder.Settings.Edits
import CloneProjects.Tinder.Settings.Saving
import Mathlib.Data.Rat.Floor

/-!
# The search age range

The pair of ages lives in the sliders, in the labels of the age cell, in the loaded user and in the stored
document. Once it is valid (a load brings a valid pair, or `setMinMaxSlider` has handled a slider event) the
four agree for the rest of the session (`ShowsRange`), and later sessions load the pair that was saved.
-/

namespace CloneProjects.Tinder.Settings

open EventRun (run)

/-- The ages Settings accepts: within the limits of the sliders, the minimum below the maximum. -/
def ValidRange (minAge maxAge : ℤ) : Prop := 18 ≤ minAge ∧ minAge ≤ maxAge ∧ maxAge ≤ 99

/-- The number in a label, after the four characters of `Min ` or `Max `. -/
def labelNumber (label : String) : Option ℤ := Numeral.parseInt (String.ofList (label.toList.drop 4))

/-- The labels of a cell show the pair. -/
def AgeRangeCell.Shows (cell : AgeRangeCell) (minAge maxAge : ℤ) : Prop :=
  labelNumber cell.minLabel = some minAge ∧ labelNumber cell.maxLabel = some maxAge

/-- The loaded user has a valid pair, and the age cell shows it, the existing one and a rebuilt one. -/
structure ShowsRange (minAge maxAge : ℤ) (w : World) : Prop where
  valid : ValidRange minAge maxAge
  user : ∃ user, w.screen.currentUser = some user ∧ user.searchMinAge = some minAge ∧
    user.searchMaxAge = some maxAge
  shown : ∀ cell, w.screen.ageRangeCell = some cell → cell.Shows minAge maxAge
  rebuilt : (cellForAgeRange w.screen.currentUser).Shows minAge maxAge

/-- The events that make the pair valid: a load that brings a valid one, and a slider event once a user is
loaded. -/
def Settles (uid : String) (w : World) : Event → Prop
  | .loadCallback error => error = none ∧ ∃ infos minAge maxAge, w.users uid = some infos ∧
      infos.int "MinimumAge" = some minAge ∧ infos.int "MaximumAge" = some maxAge ∧ ValidRange minAge maxAge
  | .moveMinSlider _ | .moveMaxSlider _ => w.screen.currentUser.isSome
  | _ => False

/-! ### Sliders and labels -/

/-- Truncation keeps the limits of a slider. -/
theorem truncate_bounds {x : ℚ} (h : 18 ≤ x ∧ x ≤ 99) : 18 ≤ truncate x ∧ truncate x ≤ 99 := by
  have hpos : 0 ≤ x.num := Rat.num_nonneg.mpr (le_trans (by norm_num) h.1)
  have hfloor : truncate x = ⌊x⌋ := by
    rw [truncate, Int.tdiv_eq_ediv_of_nonneg hpos, Rat.floor_def']
  rw [hfloor]
  constructor
  · exact Int.le_floor.mpr (by exact_mod_cast h.1)
  · have hle : (⌊x⌋ : ℚ) ≤ 99 := le_trans (Int.floor_le x) h.2
    exact_mod_cast hle

/-- Whatever the sliders say, the pair that `setMinMaxSlider` computes is valid. -/
theorem AgeRangeCell.validRange (cell : AgeRangeCell) : ValidRange cell.minValue cell.maxValue := by
  have hmin := truncate_bounds cell.minSlider.inRange
  have hmax := truncate_bounds cell.maxSlider.inRange
  exact ⟨hmin.1, le_max_left _ _, max_le hmin.2 hmax.2⟩

/-- A label reads back as its number. -/
theorem labelNumber_append {word : String} {n : ℤ} (hword : word.toList.length = 4) (h : Numeral.FitsInt n) :
    labelNumber (word ++ toString n) = some n := by
  have htext : String.ofList ((word ++ toString n).toList.drop 4) = toString n := by
    rw [String.toList_append, ← hword, List.drop_left, String.ofList_toList]
  rw [labelNumber, htext, Numeral.parseInt_toString h]

theorem ValidRange.fitsInt {minAge maxAge : ℤ} (h : ValidRange minAge maxAge) :
    Numeral.FitsInt minAge ∧ Numeral.FitsInt maxAge := by
  unfold ValidRange at h
  unfold Numeral.FitsInt
  omega

/-- A cell built from a valid pair shows it. -/
theorem cellForAgeRange_shows {user : User} {minAge maxAge : ℤ} (hvalid : ValidRange minAge maxAge)
    (hmin : user.searchMinAge = some minAge) (hmax : user.searchMaxAge = some maxAge) :
    (cellForAgeRange (some user)).Shows minAge maxAge := by
  simp only [cellForAgeRange, Option.bind_some, hmin, hmax, Option.getD_some]
  exact ⟨labelNumber_append (by decide) hvalid.fitsInt.1, labelNumber_append (by decide) hvalid.fitsInt.2⟩

section
variable {accepts : String → Bool} {uid : String} {users : String → Option Infos} {w w' : World} {e : Event}
  {minAge maxAge : ℤ}

/-! ### What a step does to the pair and its cell -/

/-- Only sliders change the pair of a loaded user. -/
theorem edit_range (he : e.isSlider = false) (user : User) :
    (e.edit w user).searchMinAge = user.searchMinAge ∧ (e.edit w user).searchMaxAge = user.searchMaxAge := by
  cases e with
  | editText row text =>
    simp only [Event.edit]
    cases (w.screen.textCell row).bind (·.editingChanged) with
    | none => exact ⟨rfl, rfl⟩
    | some handler => cases handler <;> exact ⟨rfl, rfl⟩
  | downloadURLCallback k result =>
    cases result with
    | error error => exact ⟨rfl, rfl⟩
    | ok url =>
      simp only [Event.edit]
      cases w.screen.picks[k]? with
      | none => exact ⟨rfl, rfl⟩
      | some pick => cases hslot : pick.buttonSelectImage <;> simp [hslot, Slot.setImageURL]
  | moveMinSlider x => cases he
  | moveMaxSlider x => cases he
  | _ => exact ⟨rfl, rfl⟩

/-- An age cell on display after a step was there before, or was built from the user, or was set by a
slider. -/
theorem step_ageRangeCell (hstep : step accepts w e = some w') (he : e.isSlider = false) {cell : AgeRangeCell}
    (hcell : w'.screen.ageRangeCell = some cell) :
    w.screen.ageRangeCell = some cell ∨ cell = cellForAgeRange w.screen.currentUser := by
  cases e with
  | willDisplayAgeRange =>
    simp only [step, Option.some.injEq] at hstep
    subst hstep
    exact .inr (Option.some.inj hcell).symm
  | didEndDisplayingAgeRange =>
    simp only [step, Option.some.injEq] at hstep
    subst hstep
    cases hcell
  | reloadData =>
    simp only [step, Option.some.injEq] at hstep
    subst hstep
    cases hcell
  | loadCallback error =>
    obtain ⟨v, _, rfl⟩ := step_loadCallback hstep
    rcases getByUserInfo_cases accepts w.screen (w.getDocument v error) with ⟨_, _, heq⟩ | ⟨_, heq⟩
    · simp [heq, reloadData] at hcell
    · exact .inl (by simpa [heq] using hcell)
  | moveMinSlider x => cases he
  | moveMaxSlider x => cases he
  | _ =>
    rw [(step_frame hstep).ageRangeCell rfl] at hcell
    exact .inl hcell

/-- A slider event makes the pair valid and shows it. -/
theorem slider_settles (hstep : step accepts w e = some w') (hsession : Session uid w)
    (honce : (w.buffer uid).LoadsOnce) (he : e.isSlider = true) {user : User}
    (huser : w.screen.currentUser = some user) : ∃ minAge maxAge, ShowsRange minAge maxAge w' := by
  obtain ⟨cell, shown, hshown, hmin, hmax, hedit⟩ := step_slider he hstep
  have hvalid := cell.validRange
  have hchanged := step_currentUser hstep hsession honce huser
  rw [hedit] at hchanged
  refine ⟨cell.minValue, cell.maxValue, hvalid, ⟨_, hchanged, rfl, rfl⟩, fun c hc => ?_, ?_⟩
  · obtain rfl := Option.some.inj (hshown.symm.trans hc)
    rw [AgeRangeCell.Shows, hmin, hmax]
    exact ⟨labelNumber_append (by decide) hvalid.fitsInt.1, labelNumber_append (by decide) hvalid.fitsInt.2⟩
  · rw [hchanged]
    exact cellForAgeRange_shows hvalid rfl rfl

/-- From then on every event of the session keeps a valid pair on show. -/
theorem step_showsRange (hstep : step accepts w e = some w') (hsession : Session uid w)
    (honce : (w.buffer uid).LoadsOnce) (h : ShowsRange minAge maxAge w) :
    ∃ minAge' maxAge', ShowsRange minAge' maxAge' w' := by
  obtain ⟨user, huser, hmin, hmax⟩ := h.user
  cases he : e.isSlider with
  | true => exact slider_settles hstep hsession honce he huser
  | false =>
    have hchanged := step_currentUser hstep hsession honce huser
    have hmin' := (edit_range (w := w) he user).1.trans hmin
    have hmax' := (edit_range (w := w) he user).2.trans hmax
    refine ⟨minAge, maxAge, h.valid, ⟨_, hchanged, hmin', hmax'⟩, fun cell hcell => ?_, ?_⟩
    · rcases step_ageRangeCell hstep he hcell with hold | rfl
      · exact h.shown cell hold
      · exact h.rebuilt
    · rw [hchanged]
      exact cellForAgeRange_shows h.valid hmin' hmax'

theorem settles_showsRange (hstep : step accepts w e = some w') (hsession : Session uid w)
    (honce : (w.buffer uid).LoadsOnce) (h : Settles uid w e) : ∃ minAge maxAge, ShowsRange minAge maxAge w' := by
  cases e with
  | loadCallback error =>
    obtain ⟨rfl, infos, minAge, maxAge, hstored, hmin, hmax, hvalid⟩ := h
    have hscreen := step_loaded hstep hsession hstored
    have huser : w'.screen.currentUser = some (User.init infos) := by rw [hscreen]; rfl
    refine ⟨minAge, maxAge, hvalid, ⟨_, huser, hmin, hmax⟩, fun cell hcell => ?_, ?_⟩
    · rw [hscreen] at hcell
      cases hcell
    · rw [huser]
      exact cellForAgeRange_shows hvalid hmin hmax
  | moveMinSlider x =>
    obtain ⟨user, huser⟩ := Option.isSome_iff_exists.mp h
    exact slider_settles hstep hsession honce rfl huser
  | moveMaxSlider x =>
    obtain ⟨user, huser⟩ := Option.isSome_iff_exists.mp h
    exact slider_settles hstep hsession honce rfl huser
  | _ => cases h

/-! ### Sessions -/

theorem run_showsRange {pre post : List SessionEvent} {s : World}
    (hpre : run (sessionStep accepts) (opened (some uid) users) pre = some s) (hsettles : Settles uid s e)
    (hpost : .opened ∉ post)
    (hrun : run (sessionStep accepts) (opened (some uid) users) (pre ++ .screen e :: post) = some w) :
    ∃ minAge maxAge, ShowsRange minAge maxAge w := by
  refine EventRun.run_since (P := fun _ w => ∃ minAge maxAge, ShowsRange minAge maxAge w) hpre
    (fun s' hstep => ?_) ?_ hrun
  · obtain ⟨hsession, honce⟩ := run_sessions hpre
    exact settles_showsRange hstep hsession honce hsettles
  · rintro es t x t' hes hx ⟨minAge, maxAge, h⟩ hstep
    cases x with
    | opened => exact absurd hx hpost
    | screen e =>
      obtain ⟨hsession, honce⟩ := run_sessions hes
      exact step_showsRange hstep hsession honce h

/-- What a save writes of the pair. -/
theorem datas_range (currentUser : Option User) : ∃ minAge maxAge,
    datas uid currentUser "MinimumAge" = some (.integer minAge) ∧
    datas uid currentUser "MaximumAge" = some (.integer maxAge) ∧
    (User.init (datas uid currentUser)).searchMinAge = some minAge ∧
    (User.init (datas uid currentUser)).searchMaxAge = some maxAge :=
  ⟨_, _, rfl, rfl, rfl, rfl⟩

/-- **The search age range.** In every run of Settings sessions of a user: from the event that makes the pair
valid until the screen is opened again, the loaded pair is valid and is the one in the labels of the age cell,
existing or rebuilt, and a Save writes exactly this pair; and after a Save has been applied, with none applied
since, a session that loads gets exactly the pair this Save wrote. -/
theorem age_range_stays_valid {es : List SessionEvent}
    (hrun : run (sessionStep accepts) (opened (some uid) users) es = some w) :
    (∀ pre e post s, es = pre ++ .screen e :: post → .opened ∉ post →
      run (sessionStep accepts) (opened (some uid) users) pre = some s → Settles uid s e →
      ∃ minAge maxAge, ShowsRange minAge maxAge w ∧ ∀ v, w.uid = some v → ∃ written,
        (saveInfoButtonPressed w).saves = w.saves ++ [⟨some (v, written), true, true⟩] ∧
        written "MinimumAge" = some (.integer minAge) ∧ written "MaximumAge" = some (.integer maxAge)) ∧
    (∀ pre mid post m, es = pre ++ .screen .savePressed ::
        (mid ++ .screen (.saveCallback m.saves.length none) :: post) →
      run (sessionStep accepts) (opened (some uid) users) pre = some m →
      (∀ i, .screen (.saveCallback i none) ∉ post) →
      ∀ w', step accepts w (.loadCallback none) = some w' → ∃ user minAge maxAge,
        w'.screen.currentUser = some user ∧ user.searchMinAge = some minAge ∧ user.searchMaxAge = some maxAge ∧
        datas uid m.screen.currentUser "MinimumAge" = some (.integer minAge) ∧
        datas uid m.screen.currentUser "MaximumAge" = some (.integer maxAge)) := by
  constructor
  · rintro pre e post s rfl hpost hpre hsettles
    obtain ⟨minAge, maxAge, hshows⟩ := run_showsRange hpre hsettles hpost hrun
    refine ⟨minAge, maxAge, hshows, fun v hv => ⟨datas v w.screen.currentUser, ?_, ?_⟩⟩
    · rw [saveInfoButtonPressed, hv]
    · obtain ⟨user, huser, hmin, hmax⟩ := hshows.user
      rw [huser]
      simp [datas, dictionary, List.lookup_cons, hmin, hmax]
  · rintro pre mid post m rfl hpre hpost w' hload
    obtain ⟨v, hv, hstored⟩ := save_lands hpre hrun hpost
    obtain rfl := (run_sessions hpre).1.signedIn v hv
    have hscreen := step_loaded hload (run_sessions hrun).1 hstored
    obtain ⟨minAge, maxAge, hminWritten, hmaxWritten, hmin, hmax⟩ := datas_range m.screen.currentUser
    exact ⟨_, minAge, maxAge, by rw [hscreen]; rfl, hmin, hmax, hminWritten, hmaxWritten⟩

end

/-- The load of a profile without a search range, and a slider moved. -/
def movedSlider : List SessionEvent :=
  [.screen (.loadCallback none), .screen .willDisplayAgeRange, .screen (.moveMaxSlider 40)]

/-- Its range is valid from the slider event on, and once it is saved the next session loads it. -/
theorem age_range_of_movedSlider : ∃ m w w' user minAge maxAge,
    run (sessionStep fun _ => true) (opened (some "uid") storedUsers) movedSlider = some m ∧
    (∃ minAge maxAge, ShowsRange minAge maxAge m) ∧
    run (sessionStep fun _ => true) (opened (some "uid") storedUsers) (movedSlider ++
      [.screen .savePressed, .screen (.saveCallback 0 none), .opened]) = some w ∧
    step (fun _ => true) w (.loadCallback none) = some w' ∧ w'.screen.currentUser = some user ∧
    user.searchMinAge = some minAge ∧ user.searchMaxAge = some maxAge ∧
    datas "uid" m.screen.currentUser "MinimumAge" = some (.integer minAge) := by
  have hpre : run (sessionStep fun _ => true) (opened (some "uid") storedUsers) movedSlider = some _ := rfl
  have hbuilt : run (sessionStep fun _ => true) (opened (some "uid") storedUsers)
      [.screen (.loadCallback none), .screen .willDisplayAgeRange] = some _ := rfl
  have hrun : run (sessionStep fun _ => true) (opened (some "uid") storedUsers) (movedSlider ++
      .screen .savePressed :: ([] ++ .screen (.saveCallback 0 none) :: [.opened])) = some _ := rfl
  obtain ⟨minAge, maxAge, hshows, _⟩ := (age_range_stays_valid hpre).1
    [.screen (.loadCallback none), .screen .willDisplayAgeRange] (.moveMaxSlider 40) [] _ rfl (by simp) hbuilt rfl
  obtain ⟨user, minAge', maxAge', huser, hmin, hmax, hwritten, _⟩ :=
    (age_range_stays_valid hrun).2 movedSlider [] [.opened] _ rfl hpre (by simp) _ rfl
  exact ⟨_, _, _, user, minAge', maxAge', hpre, ⟨minAge, maxAge, hshows⟩, hrun, rfl, huser, hmin, hmax, hwritten⟩

end CloneProjects.Tinder.Settings
