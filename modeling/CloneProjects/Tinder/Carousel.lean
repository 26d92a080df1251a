import CloneProjects.Tinder.ProfileCard
import Mathlib.Tactic.NormNum.Ineq

/-!
# The card as a carousel

A card bound to a non-empty list of images is determined by a position on a circle: `Card.showing i` is the
card whose index, bars and image all say `i`, a tap moves it one place modulo the number of images, and a
sequence of taps moves it by the difference of its nexts and previouses.
-/

namespace CloneProjects.Tinder

open EventRun (run)

/-- The move of a tap on the circle. -/
def Tap.offset (tap : Tap) : ℤ := if tap.nextDisplayTransition then 1 else -1

/-- The nexts of a sequence of taps less its previouses. -/
def position (taps : List Tap) : ℤ :=
  taps.countP Tap.nextDisplayTransition - taps.countP fun tap => !tap.nextDisplayTransition

/-- The card at place `i`, in all its parts. -/
def Card.showing (accepts : String → Bool) (viewModel : UserProfileViewModel) (i : ℤ) : Card where
  userViewModel := viewModel
  displayIndex := i
  displayIndexObserver := some (observeDisplayIndex accepts)
  view :=
    { imgProfile := subscript viewModel.imageNames i
      labelUserInfo := viewModel.attributedString
      textAlignment := viewModel.infoLocation
      imageBarStackView := (viewModel.imageNames.map fun _ => .notSelectedColour).set i.toNat .white }

section
variable {accepts : String → Bool} {viewModel : UserProfileViewModel} {i : ℤ}

theorem position_cons (tap : Tap) (taps : List Tap) : position (tap :: taps) = tap.offset + position taps := by
  unfold position Tap.offset
  rw [List.countP_cons, List.countP_cons]
  by_cases h : tap.nextDisplayTransition = true
  · simp only [h, if_true, Bool.not_true, Bool.false_eq_true, if_false]
    omega
  · simp only [h, Bool.false_eq_true, if_false, Bool.not_false, if_true]
    omega

theorem position_of_nexts {taps : List Tap} (h : ∀ tap ∈ taps, tap.nextDisplayTransition = true) :
    position taps = taps.length := by
  induction taps with
  | nil => rfl
  | cons tap taps ih =>
    rw [position_cons, ih fun x hx => h x (by simp [hx]), Tap.offset, if_pos (h tap (by simp))]
    simp only [List.length_cons]
    omega

/-! ### The card moves along the circle -/

/-- Binding a fresh view puts the card at place `0`. -/
theorem setUserViewModel_eq_showing (hne : viewModel.imageNames ≠ [])
    (haccepts : ∀ url ∈ viewModel.imageNames, accepts url = true) :
    ProfileView.fresh.setUserViewModel accepts viewModel = Card.showing accepts viewModel 0 := by
  obtain ⟨url, urls, himages⟩ := List.exists_cons_of_ne_nil hne
  have hurl : accepts url = true := haccepts url (by simp [himages])
  simp [ProfileView.setUserViewModel, ProfileView.fresh, ProfileView.setImage, Card.showing, subscript, himages,
    hurl]

theorem showing_setDisplayIndex (haccepts : ∀ url ∈ viewModel.imageNames, accepts url = true) {j : ℤ}
    (h0 : 0 ≤ j) (hn : j < viewModel.imageNames.length) :
    (Card.showing accepts viewModel i).setDisplayIndex j = some (Card.showing accepts viewModel j) := by
  obtain ⟨url, himage⟩ := Option.isSome_iff_exists.mp (subscript_isSome.mpr ⟨h0, hn⟩)
  have hurl : accepts url = true := by
    rw [subscript, if_pos h0] at himage
    exact haccepts url (List.mem_of_getElem? himage)
  have hbars : (((viewModel.imageNames.map fun _ => UIColor.notSelectedColour).set i.toNat .white).map
      fun _ => UIColor.notSelectedColour) = viewModel.imageNames.map fun _ => .notSelectedColour := by
    simp only [List.map_const', List.length_set, List.length_replicate]
  obtain ⟨bar, hbar⟩ := Option.isSome_iff_exists.mp (subscript_isSome.mpr (⟨h0, by simpa using hn⟩ :
    0 ≤ j ∧ j < (viewModel.imageNames.map fun _ => UIColor.notSelectedColour).length))
  simp only [Card.setDisplayIndex, Card.showing, observeDisplayIndex, himage, hbars, hbar, ProfileView.setImage,
    hurl, Option.bind_eq_bind, Option.bind_some, Option.getD_some, if_true]

/-- A tap moves the card one place. -/
theorem showing_catchTheTap (haccepts : ∀ url ∈ viewModel.imageNames, accepts url = true) (h0 : 0 ≤ i)
    (hn : i < viewModel.imageNames.length) (tap : Tap) :
    (Card.showing accepts viewModel i).catchTheTap tap =
      some (Card.showing accepts viewModel ((i + tap.offset) % viewModel.imageNames.length)) := by
  have hpos : (0 : ℤ) < viewModel.imageNames.length := by omega
  have hnext := next_eq_emod h0 hn
  have hprevious := previous_eq_emod h0 hn
  unfold Card.catchTheTap Tap.offset
  split
  · rw [← hnext]
    exact showing_setDisplayIndex haccepts (hnext ▸ Int.emod_nonneg _ hpos.ne') (hnext ▸ Int.emod_lt_of_pos _ hpos)
  · rw [← sub_eq_add_neg, ← hprevious]
    exact showing_setDisplayIndex haccepts (hprevious ▸ Int.emod_nonneg _ hpos.ne')
      (hprevious ▸ Int.emod_lt_of_pos _ hpos)

/-- A sequence of taps moves it by their position. -/
theorem showing_taps (haccepts : ∀ url ∈ viewModel.imageNames, accepts url = true) (h0 : 0 ≤ i)
    (hn : i < viewModel.imageNames.length) (taps : List Tap) :
    run Card.catchTheTap (Card.showing accepts viewModel i) taps =
      some (Card.showing accepts viewModel ((i + position taps) % viewModel.imageNames.length)) := by
  have hpos : (0 : ℤ) < viewModel.imageNames.length := by omega
  induction taps generalizing i with
  | nil =>
    rw [EventRun.run_nil, position]
    simp only [List.countP_nil, Nat.cast_zero, sub_zero, add_zero, Int.emod_eq_of_lt h0 hn]
  | cons tap taps ih =>
    rw [EventRun.run_cons, showing_catchTheTap haccepts h0 hn, Option.bind_some,
      ih (Int.emod_nonneg _ hpos.ne') (Int.emod_lt_of_pos _ hpos), Int.emod_add_emod, position_cons]
    congr 3
    omega

/-! ### What the card shows -/

theorem showing_bar (h0 : 0 ≤ i) (hn : i < viewModel.imageNames.length) (j : ℕ) :
    (Card.showing accepts viewModel i).view.imageBarStackView[j]? = some .white ↔ (j : ℤ) = i := by
  simp only [Card.showing, List.getElem?_set, List.length_map, List.getElem?_map]
  by_cases hj : i.toNat = j
  · rw [if_pos hj, if_pos (by omega)]
    simp only [true_iff]
    omega
  · rw [if_neg hj]
    constructor
    · intro hwhite
      obtain ⟨_, _, hcolour⟩ := Option.map_eq_some_iff.mp hwhite
      cases hcolour
    · intro heq
      omega

/-- **The carousel.** Any taps on a freshly bound card run through; afterwards the index is the number of nexts
less that of previouses modulo the number of images, there is one bar for each image and exactly the bar at the
index is lit, and the image view has the URL at the index. From there a next and a previous, and as many nexts
as there are images, lead back to the same card. -/
theorem taps_carousel (hne : viewModel.imageNames ≠ [])
    (haccepts : ∀ url ∈ viewModel.imageNames, accepts url = true) (taps : List Tap) :
    ∃ card, run Card.catchTheTap (ProfileView.fresh.setUserViewModel accepts viewModel) taps = some card ∧
      card.displayIndex = ((taps.countP Tap.nextDisplayTransition : ℤ) -
        taps.countP fun tap => !tap.nextDisplayTransition) % viewModel.imageNames.length ∧
      card.view.imageBarStackView.length = viewModel.imageNames.length ∧
      (∀ j : ℕ, card.view.imageBarStackView[j]? = some .white ↔ (j : ℤ) = card.displayIndex) ∧
      (∃ url, subscript viewModel.imageNames card.displayIndex = some url ∧ card.view.imgProfile = some url) ∧
      (∀ next previous : Tap, next.nextDisplayTransition = true → previous.nextDisplayTransition = false →
        run Card.catchTheTap card [next, previous] = some card) ∧
      ∀ nexts : List Tap, (∀ tap ∈ nexts, tap.nextDisplayTransition = true) →
        nexts.length = viewModel.imageNames.length → run Card.catchTheTap card nexts = some card := by
  have hpos : (0 : ℤ) < viewModel.imageNames.length := by
    have hlength := List.length_pos_iff.mpr hne
    omega
  have h0 := Int.emod_nonneg (position taps) hpos.ne'
  have hn := Int.emod_lt_of_pos (position taps) hpos
  refine ⟨Card.showing accepts viewModel (position taps % viewModel.imageNames.length), ?_, rfl, ?_,
    showing_bar h0 hn, ?_, fun next previous hnext hprevious => ?_, fun nexts hnexts hlength => ?_⟩
  · rw [setUserViewModel_eq_showing hne haccepts, showing_taps haccepts le_rfl hpos, zero_add]
  · simp [Card.showing]
  · obtain ⟨url, hurl⟩ := Option.isSome_iff_exists.mp (subscript_isSome.mpr ⟨h0, hn⟩)
    exact ⟨url, hurl, hurl⟩
  · rw [showing_taps haccepts h0 hn, position_cons, position_cons, Tap.offset, Tap.offset, if_pos hnext,
      if_neg (by simp [hprevious])]
    simp [position]
  · rw [showing_taps haccepts h0 hn, position_of_nexts hnexts, hlength, Int.add_emod_right,
      Int.emod_emod_of_dvd _ dvd_rfl]

end

/-- Two images, tapped on the right-hand side. -/
theorem taps_carousel_two_images : ∃ card,
    run Card.catchTheTap (ProfileView.fresh.setUserViewModel (fun text => text ≠ "")
      ⟨"Ada 30", ["https://host/0", "https://host/1"], .left⟩) [⟨300, 350⟩] = some card ∧
    card.displayIndex = 1 ∧ card.view.imgProfile = some "https://host/1" := by
  have hnext : Tap.nextDisplayTransition ⟨300, 350⟩ = true := by norm_num [Tap.nextDisplayTransition]
  obtain ⟨card, hrun, hindex, _, _, ⟨url, hurl, himage⟩, _⟩ := @taps_carousel (fun text => text ≠ "")
    ⟨"Ada 30", ["https://host/0", "https://host/1"], .left⟩ (by simp) (by simp) [⟨300, 350⟩]
  have hone : card.displayIndex = 1 := by simpa [List.countP_cons, hnext] using hindex
  rw [hone] at hurl
  rw [← Option.some.inj hurl] at himage
  exact ⟨card, hrun, hone, himage⟩

end CloneProjects.Tinder
