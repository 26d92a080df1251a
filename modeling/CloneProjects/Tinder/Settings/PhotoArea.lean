import CloneProjects.Base.Gaps
import CloneProjects.Tinder.Settings.Codec

/-!
# The photo area and the card

The Settings screen loads the pictures of the three slots one after the other and stops at the first slot
without a URL (`Gaps.untilGap`); the card takes the URLs of all the slots (`List.reduceOption`). The two screens
show the same photos exactly when no photo stands behind an empty slot.
-/

namespace CloneProjects.Tinder.Settings

open Gaps (Gapless untilGap)

/-- The three slots of a user, with the empty URL as no photo. -/
def slotPhotos (user : User) : List (Option String) :=
  [user.imageURL1, user.imageURL2, user.imageURL3].map (Option.filter (· ≠ ""))

/-- The document has a photo for the slot. -/
def HasPhoto (infos : Infos) (slot : Slot) : Prop := ∃ url, infos slot.key = some (.string url) ∧ url ≠ ""

section
variable {accepts : String → Bool} {infos : Infos}

theorem nonEmptyURL_eq (url : Option String) : nonEmptyURL url = (url.filter (· ≠ "")).toList := by
  cases url with
  | none => rfl
  | some url =>
    simp only [nonEmptyURL, String.isEmpty_iff, Option.filter_some]
    by_cases h : url = ""
    · rw [if_pos h, if_neg (by simpa using h)]
      rfl
    · rw [if_neg h, if_pos (by simpa using h)]
      rfl

/-- The card takes the photos of all the slots. -/
theorem imageNames_eq (user : User) :
    user.createUserProfileViewModel.imageNames = (slotPhotos user).reduceOption := by
  have hcons : ∀ (x : Option String) xs, (x :: xs).reduceOption = x.toList ++ xs.reduceOption := by
    intro x xs
    cases x <;> rfl
  simp only [User.createUserProfileViewModel, nonEmptyURL_eq, slotPhotos, List.map_cons, List.map_nil, hcons,
    List.reduceOption_nil, List.append_nil, List.append_assoc]

/-- The photo area takes those before the first empty slot. -/
theorem loadProfilePictures_eq (user : User) (haccepts : ∀ (slot : Slot) url, slot.imageURL user = some url →
    (accepts url = true ↔ url ≠ "")) :
    (loadProfilePictures accepts (some user)).map Prod.snd = untilGap (slotPhotos user) := by
  have hfilter : ∀ slot : Slot, (slot.imageURL user).filter accepts = (slot.imageURL user).filter (· ≠ "") := by
    intro slot
    cases hurl : slot.imageURL user with
    | none => rfl
    | some url => simp only [Option.filter_some, haccepts slot url hurl, decide_eq_true_eq]
  have h1 := hfilter .area1
  have h2 := hfilter .area2
  have h3 := hfilter .area3
  simp only [Slot.imageURL] at h1 h2 h3
  simp only [loadProfilePictures, Option.bind_some, h1, h2, h3, slotPhotos, List.map_cons, List.map_nil]
  cases user.imageURL1.filter (· ≠ "") with
  | none => rfl
  | some url =>
    cases user.imageURL2.filter (· ≠ "") with
    | none => rfl
    | some url2 => cases user.imageURL3.filter (· ≠ "") <;> rfl

theorem isSome_slotPhoto (slot : Slot) :
    ((slot.imageURL (User.init infos)).filter (· ≠ "")).isSome ↔ HasPhoto infos slot := by
  have hread : slot.imageURL (User.init infos) = infos.string slot.key := by cases slot <;> rfl
  simp only [hread, Option.isSome_iff_exists, Option.filter_eq_some_iff, Infos.string_eq_some, decide_eq_true_eq,
    HasPhoto]

/-- **The photo area and the card.** Where exactly the non-empty URLs of the document are valid ones, the URLs
the photo area asks for are those of the card, in order, exactly when no photo stands behind an empty slot. -/
theorem photoArea_eq_card_iff
    (haccepts : ∀ (slot : Slot) url, infos slot.key = some (.string url) → (accepts url = true ↔ url ≠ "")) :
    (loadProfilePictures accepts (some (User.init infos))).map Prod.snd =
        (User.init infos).createUserProfileViewModel.imageNames ↔
      (HasPhoto infos .area2 → HasPhoto infos .area1) ∧ (HasPhoto infos .area3 → HasPhoto infos .area2) := by
  have hstored : ∀ (slot : Slot) url, slot.imageURL (User.init infos) = some url →
      (accepts url = true ↔ url ≠ "") := by
    intro slot url hurl
    refine haccepts slot url (Infos.string_eq_some.mp ?_)
    cases slot <;> exact hurl
  have h1 := @isSome_slotPhoto infos .area1
  have h2 := @isSome_slotPhoto infos .area2
  have h3 := @isSome_slotPhoto infos .area3
  simp only [Slot.imageURL] at h1 h2 h3
  rw [loadProfilePictures_eq _ hstored, imageNames_eq, Gaps.untilGap_eq_reduceOption_iff, Gapless, slotPhotos]
  simp only [List.map_cons, List.map_nil, List.pairwise_cons, List.mem_cons, List.not_mem_nil, or_false,
    forall_eq_or_imp, forall_eq, h1, h2, h3]
  tauto

end

/-- A photo in the first slot alone is shown on both screens. -/
theorem photoArea_storedProfile :
    (loadProfilePictures (fun text => text ≠ "") (some (User.init storedProfile))).map Prod.snd =
      (User.init storedProfile).createUserProfileViewModel.imageNames := by
  have hempty : ∀ slot, slot ≠ .area1 → ¬ HasPhoto storedProfile slot := by
    rintro slot hslot ⟨url, hurl, _⟩
    cases slot with
    | area1 => exact hslot rfl
    | area2 => cases hurl
    | area3 => cases hurl
  refine (photoArea_eq_card_iff fun slot url _ => by simp).mpr ⟨fun h => ?_, fun h => ?_⟩
  · exact absurd h (hempty .area2 (by decide))
  · exact absurd h (hempty .area3 (by decide))

/-- A photo in the second slot alone is on the card and not in the photo area. -/
theorem photo_behind_gap : ¬ ∀ (accepts : String → Bool) (infos : Infos),
    (∀ (slot : Slot) url, infos slot.key = some (.string url) → (accepts url = true ↔ url ≠ "")) →
    (loadProfilePictures accepts (some (User.init infos))).map Prod.snd =
      (User.init infos).createUserProfileViewModel.imageNames := by
  intro h
  have heq := h (fun text => text ≠ "") (dictionary [("ImageURL2", .string "https://host/image2")])
    fun slot url _ => by simp
  have hlost : [] = ["https://host/image2"] := heq
  cases hlost

end CloneProjects.Tinder.Settings
