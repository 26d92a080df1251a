import CloneProjects.Base.Run
import CloneProjects.Tinder.User
import Mathlib.Algebra.Order.Ring.Int
import Mathlib.Algebra.Order.Ring.Rat

/-!
# The profile card

A `ProfileView` bound to a `UserProfileViewModel`: the images are stepped through by taps, the index wraps
around at both ends, and the view follows it through the display-index observer. An array subscript out of
range stops the app; it is `none` here.
-/

namespace CloneProjects.Tinder

/-- `xs[i]`. -/
def subscript {α : Type} (xs : List α) (i : ℤ) : Option α := if 0 ≤ i then xs[i.toNat]? else none

inductive UIColor
  | white
  | notSelectedColour
  deriving DecidableEq

/-- The subviews of a card: the last URL given to the image view (none: the placeholder), the label, and the
colours of the bars in the stack view. -/
structure ProfileView where
  imgProfile : Option String
  labelUserInfo : String
  textAlignment : NSTextAlignment
  imageBarStackView : List UIColor
  deriving DecidableEq

/-- `ProfileView(frame: .zero)`. -/
def ProfileView.fresh : ProfileView := ⟨none, "", .left, []⟩

/-- A view with its view model, whose mutable members are `displayIndex` and `displayIndexObserver`. -/
structure Card where
  userViewModel : UserProfileViewModel
  displayIndex : ℤ
  displayIndexObserver : Option (ℤ → Option String → ProfileView → Option ProfileView)
  view : ProfileView

section card
-- `URL(string:)` is Foundation's: `accepts text` says whether it makes a URL of the text.
variable (accepts : String → Bool)

/-- `sd_setImage` when the text is a URL. -/
def ProfileView.setImage (view : ProfileView) (imageURL : String) : ProfileView :=
  if accepts imageURL then { view with imgProfile := some imageURL } else view

/-- The closure of `setDisplayIndexObserver`. -/
def observeDisplayIndex (index : ℤ) (imageURL : Option String) (view : ProfileView) : Option ProfileView := do
  let bars := view.imageBarStackView.map fun _ => UIColor.notSelectedColour
  let _ ← subscript bars index
  some (ProfileView.setImage accepts { view with imageBarStackView := bars.set index.toNat .white }
    (imageURL.getD ""))

/-- The observer of `ProfileView.userViewModel`. The view model arrives with its index at `0`. -/
def ProfileView.setUserViewModel (view : ProfileView) (viewModel : UserProfileViewModel) : Card :=
  let imagesNames := viewModel.imageNames.head?.getD ""
  let view := view.setImage accepts imagesNames
  let bars := view.imageBarStackView ++ viewModel.imageNames.map fun _ => .notSelectedColour
  { userViewModel := viewModel
    displayIndex := 0
    displayIndexObserver := some (observeDisplayIndex accepts)
    view :=
      { view with
        labelUserInfo := viewModel.attributedString
        textAlignment := viewModel.infoLocation
        imageBarStackView := bars.modify 0 fun _ => .white } }

/-- The observer of `displayIndex`, run after the assignment. -/
def Card.setDisplayIndex (card : Card) (index : ℤ) : Option Card := do
  let imageURL ← subscript card.userViewModel.imageNames index
  match card.displayIndexObserver with
  | some observer =>
    let view ← observer index (some imageURL) card.view
    some { card with displayIndex := index, view := view }
  | none => some { card with displayIndex := index }

def Card.getNextDisplay (card : Card) : Option Card :=
  card.setDisplayIndex
    (if card.displayIndex + 1 ≥ card.userViewModel.imageNames.length then 0 else card.displayIndex + 1)

def Card.getPreviousDisplay (card : Card) : Option Card :=
  card.setDisplayIndex
    (if card.displayIndex - 1 < 0 then card.userViewModel.imageNames.length - 1 else card.displayIndex - 1)

/-- A tap: its location and the width of the view's frame when it comes. -/
structure Tap where
  locationX : ℚ
  frameWidth : ℚ

def Tap.nextDisplayTransition (tap : Tap) : Bool := tap.locationX > tap.frameWidth / 2

def Card.catchTheTap (card : Card) (tap : Tap) : Option Card :=
  if tap.nextDisplayTransition then card.getNextDisplay else card.getPreviousDisplay

/-- The card `createProfileFromUser` makes of a stored document. -/
def cardOf (infos : Infos) : Card :=
  ProfileView.fresh.setUserViewModel accepts (User.init infos).createUserProfileViewModel

/-! ### The index stays in range -/

theorem subscript_isSome {α : Type} {xs : List α} {i : ℤ} :
    (subscript xs i).isSome ↔ 0 ≤ i ∧ i < xs.length := by
  unfold subscript
  split
  · simp only [isSome_getElem?]
    omega
  · simp only [Option.isSome_none, Bool.false_eq_true, false_iff]
    omega

/-- The index wraps around: it moves modulo the number of images. -/
theorem next_eq_emod {i n : ℤ} (h0 : 0 ≤ i) (hn : i < n) :
    (if i + 1 ≥ n then 0 else i + 1) = (i + 1) % n := by
  split
  · rw [show i + 1 = n by omega, Int.emod_self]
  · exact (Int.emod_eq_of_lt (by omega) (by omega)).symm

theorem previous_eq_emod {i n : ℤ} (h0 : 0 ≤ i) (hn : i < n) :
    (if i - 1 < 0 then n - 1 else i - 1) = (i - 1) % n := by
  split
  · rw [show i - 1 = n - 1 + n * (-1) by omega, Int.add_mul_emod_self_left]
    exact (Int.emod_eq_of_lt (by omega) (by omega)).symm
  · exact (Int.emod_eq_of_lt (by omega) (by omega)).symm

/-- A card between two taps: the observer is installed, the index names an image, and every image has its
bar. -/
structure Card.Settled (card : Card) : Prop where
  observer : card.displayIndexObserver = some (observeDisplayIndex accepts)
  nonneg : 0 ≤ card.displayIndex
  inRange : card.displayIndex < card.userViewModel.imageNames.length
  bars : card.view.imageBarStackView.length = card.userViewModel.imageNames.length

variable {accepts}

@[simp] theorem ProfileView.setImage_imageBarStackView (view : ProfileView) (imageURL : String) :
    (view.setImage accepts imageURL).imageBarStackView = view.imageBarStackView := by
  unfold ProfileView.setImage
  split <;> rfl

/-- The card after its index moved: the bar of the index is lit and the image view got the URL. -/
def Card.moved (accepts : String → Bool) (card : Card) (index : ℤ) (imageURL : String) : Card :=
  { card with
    displayIndex := index
    view := ProfileView.setImage accepts
      { card.view with
        imageBarStackView :=
          (card.view.imageBarStackView.map fun _ => .notSelectedColour).set index.toNat .white } imageURL }

/-- Assigning an index in range runs the observer through and settles again. -/
theorem Card.Settled.setDisplayIndex {card : Card} (h : card.Settled accepts) {index : ℤ}
    (h0 : 0 ≤ index) (hn : index < card.userViewModel.imageNames.length) :
    ∃ imageURL, subscript card.userViewModel.imageNames index = some imageURL ∧
      card.setDisplayIndex index = some (card.moved accepts index imageURL) ∧
      (card.moved accepts index imageURL).Settled accepts := by
  obtain ⟨imageURL, himage⟩ := Option.isSome_iff_exists.mp
    (subscript_isSome.mpr ⟨h0, hn⟩ : (subscript card.userViewModel.imageNames index).isSome)
  have hbar : (subscript (card.view.imageBarStackView.map fun _ => UIColor.notSelectedColour) index).isSome := by
    rw [subscript_isSome, List.length_map, h.bars]
    exact ⟨h0, hn⟩
  obtain ⟨bar, hbar⟩ := Option.isSome_iff_exists.mp hbar
  refine ⟨imageURL, himage, ?_, h.observer, h0, hn, ?_⟩
  · simp only [Card.setDisplayIndex, himage, h.observer, observeDisplayIndex, hbar, Option.bind_eq_bind,
      Option.bind_some, Option.getD_some, Card.moved]
  · simpa [Card.moved] using h.bars

/-- Neither direction of a tap leaves the range. -/
theorem Card.Settled.catchTheTap {card : Card} (h : card.Settled accepts) (tap : Tap) :
    ∃ card', card.catchTheTap tap = some card' ∧ card'.Settled accepts := by
  have hpos : (0 : ℤ) < card.userViewModel.imageNames.length := lt_of_le_of_lt h.nonneg h.inRange
  unfold Card.catchTheTap
  split
  · rw [Card.getNextDisplay, next_eq_emod h.nonneg h.inRange]
    obtain ⟨_, _, hmove⟩ := h.setDisplayIndex (Int.emod_nonneg _ hpos.ne') (Int.emod_lt_of_pos _ hpos)
    exact ⟨_, hmove⟩
  · rw [Card.getPreviousDisplay, previous_eq_emod h.nonneg h.inRange]
    obtain ⟨_, _, hmove⟩ := h.setDisplayIndex (Int.emod_nonneg _ hpos.ne') (Int.emod_lt_of_pos _ hpos)
    exact ⟨_, hmove⟩

/-- Any sequence of taps runs through. -/
theorem Card.Settled.taps {card : Card} (h : card.Settled accepts) (taps : List Tap) :
    ∃ card', EventRun.run Card.catchTheTap card taps = some card' ∧ card'.Settled accepts := by
  induction taps generalizing card with
  | nil => exact ⟨card, rfl, h⟩
  | cons tap taps ih =>
    obtain ⟨card₁, htap, h₁⟩ := h.catchTheTap tap
    obtain ⟨card₂, htaps, h₂⟩ := ih h₁
    exact ⟨card₂, by rw [EventRun.run_cons, htap, Option.bind_some, htaps], h₂⟩

/-- Binding a view model with an image settles a fresh view. -/
theorem settled_of_imageNames {viewModel : UserProfileViewModel} (h : viewModel.imageNames ≠ []) :
    (ProfileView.fresh.setUserViewModel accepts viewModel).Settled accepts := by
  have hlen : 0 < viewModel.imageNames.length := List.length_pos_iff.mpr h
  refine ⟨rfl, le_rfl, ?_, ?_⟩
  · simpa [ProfileView.setUserViewModel] using hlen
  · simp [ProfileView.setUserViewModel, ProfileView.fresh]

/-- A card without images is stopped by its first tap, whichever side it comes on. -/
theorem catchTheTap_of_no_images {card : Card} (h : card.userViewModel.imageNames = []) (tap : Tap) :
    card.catchTheTap tap = none := by
  have hnone : ∀ index, card.setDisplayIndex index = none := by
    intro index
    simp only [Card.setDisplayIndex, h, subscript]
    split <;> simp
  simp only [Card.catchTheTap, Card.getNextDisplay, Card.getPreviousDisplay, hnone, ite_self]

/-- **Taps and subscripts.** The taps on a document's card run through without a subscript out of range
exactly when there is no tap or one of the three URL fields holds a non-empty string. -/
theorem taps_in_range_iff (accepts : String → Bool) (infos : Infos) (taps : List Tap) :
    (EventRun.run Card.catchTheTap (cardOf accepts infos) taps).isSome ↔
      taps = [] ∨ ∃ key ∈ ["ImageURL", "ImageURL2", "ImageURL3"], ∃ url,
        infos key = some (.string url) ∧ url ≠ "" := by
  have himages : (User.init infos).createUserProfileViewModel.imageNames ≠ [] ↔
      ∃ key ∈ ["ImageURL", "ImageURL2", "ImageURL3"], ∃ url, infos key = some (.string url) ∧ url ≠ "" := by
    constructor
    · intro hne
      obtain ⟨url, hurl⟩ := List.exists_mem_of_ne_nil _ hne
      obtain ⟨hne, key, hkey, hstored⟩ := mem_imageNames.mp hurl
      exact ⟨key, hkey, url, hstored, hne⟩
    · rintro ⟨key, hkey, url, hstored, hne⟩
      exact List.ne_nil_of_mem (mem_imageNames.mpr ⟨hne, key, hkey, hstored⟩)
  rw [← himages]
  constructor
  · intro hrun
    cases taps with
    | nil => exact .inl rfl
    | cons tap taps =>
      refine .inr fun hnil => ?_
      have htap : (cardOf accepts infos).catchTheTap tap = none := catchTheTap_of_no_images hnil tap
      rw [EventRun.run_cons, htap] at hrun
      simp at hrun
  · rintro (rfl | h)
    · rfl
    · have hsettled : (cardOf accepts infos).Settled accepts := settled_of_imageNames h
      obtain ⟨card, hrun, _⟩ := hsettled.taps taps
      rw [hrun]
      rfl

/-- A document without photos: one tap reads `imageNames[0]` of an empty array. -/
theorem tap_out_of_range : ¬ ∀ (accepts : String → Bool) (infos : Infos) (taps : List Tap),
    (EventRun.run Card.catchTheTap (cardOf accepts infos) taps).isSome := by
  intro h
  have hrun := h (fun text => text ≠ "") (fun _ => none) [⟨300, 350⟩]
  rw [EventRun.run_cons, catchTheTap_of_no_images rfl] at hrun
  simp at hrun

end card

end CloneProjects.Tinder
