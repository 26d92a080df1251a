import CloneProjects.Tinder.Origins
import CloneProjects.Tinder.Settings.AgeRange

/-!
# The profiles of the service

Every stored document is the profile of an account, and its search range is one the sliders set, or the placeholders
`-1` of a Save, or missing. So every query asks either for the ages the sliders set, or for the age `-1` that stands
for none.
-/

namespace CloneProjects.Tinder

/-! ### Search ranges -/

namespace Settings

/-- A search range: none yet, the placeholders of a Save, or a pair the sliders set. -/
inductive RangeKept : Option ℤ → Option ℤ → Prop
  | absent : RangeKept none none
  | placeholders : RangeKept (some (-1)) (some (-1))
  | valid {minAge maxAge : ℤ} (h : ValidRange minAge maxAge) : RangeKept (some minAge) (some maxAge)

theorem RangeKept.of_edit {w : World} {e : Event} {user : User}
    (h : RangeKept user.searchMinAge user.searchMaxAge) :
    RangeKept (e.edit w user).searchMinAge (e.edit w user).searchMaxAge := by
  cases he : e.isSlider with
  | false =>
    obtain ⟨hmin, hmax⟩ := edit_range (w := w) he user
    rwa [hmin, hmax]
  | true =>
    cases e with
    | moveMinSlider x | moveMaxSlider x =>
      simp only [Event.edit]
      cases w.screen.ageRangeCell with
      | none => exact h
      | some cell => exact .valid (AgeRangeCell.validRange _)
    | _ => cases he

theorem RangeKept.of_datas {uid : String} {currentUser : Option User}
    (h : ∀ user, currentUser = some user → RangeKept user.searchMinAge user.searchMaxAge) :
    RangeKept ((datas uid currentUser).int "MinimumAge") ((datas uid currentUser).int "MaximumAge") := by
  cases currentUser with
  | none => exact .placeholders
  | some user =>
    have hkept := h user rfl
    show RangeKept (some (user.searchMinAge.getD (-1))) (some (user.searchMaxAge.getD (-1)))
    generalize user.searchMinAge = minAge at hkept ⊢
    generalize user.searchMaxAge = maxAge at hkept ⊢
    cases hkept with
    | absent => exact .placeholders
    | placeholders => exact .placeholders
    | valid hvalid => exact .valid hvalid

end Settings

namespace Service

open EventRun (run)
open Settings (RangeKept ValidRange datas)

variable {accepts : String → Bool} {es : List Event} {e : Event} {w w' : World} {d : ℕ} {device : Device}
  {uid : String} {infos : Infos}

theorem run_ranges (hrun : run (step accepts) opened es = some w) :
    w.Sound accepts (fun user => RangeKept user.searchMinAge user.searchMaxAge) (fun _ _ => True)
      fun _ infos => RangeKept (infos.int "MinimumAge") (infos.int "MaximumAge") := by
  refine run_sound (fun _ _ h => h) (fun _ _ _ h => h.of_edit) (fun device x => ⟨?_, ?_⟩) hrun
  · intro k settings uid _ _ hcurrentUser _
    exact .of_datas hcurrentUser
  · intro k i imageURL register call _ _ _
    exact .absent

/-- **The search ranges.** In every run of the service: the range of a stored profile is missing, or `-1` to `-1`,
or within the limits of the sliders with the minimum below the maximum; so every query of every device asks for one
of these two kinds of range. A query of the first kind brings profiles saved with no age or the age `-1`, one of the
second profiles whose owner saved an age in the range. -/
theorem search_ranges (hrun : run (step accepts) opened es = some w) :
    (∀ uid infos, w.users uid = some infos → RangeKept (infos.int "MinimumAge") (infos.int "MaximumAge")) ∧
      ∀ (d : ℕ) (device : Device), w.devices[d]? = some device →
        (∀ query ∈ device.app.main.queries,
          RangeKept (some query.searchingMinAge) (some query.searchingMaxAge)) ∧
        ∀ subview ∈ device.app.main.screen.profileMainView,
          ∃ (owner : String) (profile : Option User) (query : Main.Query), SavedAt accepts es owner profile ∧
          subview.card = cardOf accepts (datas owner profile) ∧
          device.app.main.queries[subview.query]? = some query ∧
          ((query.searchingMinAge = -1 ∧ query.searchingMaxAge = -1 ∧ (profile.bind (·.age)).getD (-1) = -1) ∨
            ValidRange query.searchingMinAge query.searchingMaxAge ∧
              ∃ age, profile.bind (·.age) = some age ∧ query.searchingMinAge ≤ age ∧
                age ≤ query.searchingMaxAge) := by
  have hranges := run_ranges hrun
  refine ⟨hranges.stored, fun d device hdevice => ?_⟩
  have hqueries : ∀ query ∈ device.app.main.queries,
      RangeKept (some query.searchingMinAge) (some query.searchingMaxAge) := by
    intro query hquery
    obtain ⟨j, hj⟩ := List.mem_iff_getElem?.mp hquery
    obtain ⟨_, infos, _, hkept, hmin, hmax⟩ := (hranges.devices d device hdevice).main.queries j query hj
    rw [← hmin, ← hmax]
    exact hkept
  refine ⟨hqueries, fun subview hsubview => ?_⟩
  have hdeck := ((run_hasOrigins hrun).devices d device hdevice).main.deck
  obtain ⟨owner, infos, ho, hcard, query, hquery, hmatches⟩ := hdeck subview hsubview
  obtain ⟨profile, hsaved, rfl⟩ := ho.saved_of_key (key_of_matches hmatches) (by decide)
  have hbounds := matches_datas.mp hmatches
  refine ⟨owner, profile, query, hsaved, hcard, hquery, ?_⟩
  have hkept := hqueries query (List.mem_of_getElem? hquery)
  generalize query.searchingMinAge = minAge at hkept hbounds ⊢
  generalize query.searchingMaxAge = maxAge at hkept hbounds ⊢
  cases hkept with
  | placeholders => exact .inl ⟨rfl, rfl, by omega⟩
  | valid hvalid =>
    refine .inr ⟨hvalid, ?_⟩
    cases hage : profile.bind (·.age) with
    | none =>
      rw [hage, Option.getD_none] at hbounds
      have := hvalid.1
      omega
    | some age =>
      rw [hage, Option.getD_some] at hbounds
      exact ⟨age, rfl, hbounds⟩

/-- Ada opens her Settings once more: her stored age `-1` gives the age cell its handler, she enters an age, moves
both sliders and saves. -/
def secondSave : List Event :=
  firstSave ++ [.app .pressSettingsButton, .app (.settings 1 (.loadCallback none)),
    .app (.settings 1 (.willDisplay .age)), .app (.settings 1 .willDisplayAgeRange),
    .app (.settings 1 (.editText .age "31")), .app (.settings 1 (.moveMinSlider 20)),
    .app (.settings 1 (.moveMaxSlider 40)), .app (.settings 1 .savePressed),
    .app (.settings 1 (.saveCallback 0 none)), .app (.main .settingsSaved), .fetchAnswered 2 none,
    .queryAnswered 1 (.ok ["uid"])].map (.device 0)

theorem search_ranges_secondSave : ∃ w device subview query owner profile age,
    run (step fun _ => true) opened secondSave = some w ∧ w.devices[0]? = some device ∧
    device.app.main.screen.profileMainView = [subview] ∧ device.app.main.queries[subview.query]? = some query ∧
    SavedAt (fun _ => true) secondSave owner profile ∧ profile.bind (·.age) = some age ∧
    ValidRange query.searchingMinAge query.searchingMaxAge ∧
    query.searchingMinAge ≤ age ∧ age ≤ query.searchingMaxAge := by
  have hminimums : ((run (step fun _ => true) opened secondSave).bind (·.devices[0]?)).map (fun device =>
      device.app.main.screen.profileMainView.map fun subview =>
        device.app.main.queries[subview.query]?.map (·.searchingMinAge)) = some [some 20] := by decide +kernel
  obtain ⟨device, hbind, hdeck⟩ := Option.map_eq_some_iff.mp hminimums
  obtain ⟨w, hrun, hdevice⟩ := Option.bind_eq_some_iff.mp hbind
  obtain ⟨subview, hsubview, hminimum⟩ := List.map_eq_singleton_iff.mp hdeck
  obtain ⟨owner, profile, query, hsaved, _, hquery, hage⟩ := ((search_ranges hrun).2 0 device hdevice).2 subview
    (hsubview ▸ List.mem_singleton_self subview)
  rw [hquery, Option.map_some, Option.some.injEq] at hminimum
  rcases hage with ⟨hplaceholder, _⟩ | ⟨hvalid, age, hage, hbounds⟩
  · omega
  · exact ⟨w, device, subview, query, owner, profile, age, hrun, hdevice, hsubview, hquery, hsaved, hage, hvalid,
      hbounds⟩

end Service

end CloneProjects.Tinder
