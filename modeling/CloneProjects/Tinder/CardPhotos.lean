import CloneProjects.Pods.SDWebImage
import CloneProjects.Tinder.Carousel

/-!
# The photos on the cards

The cards of the main screen load their photos through the one manager of SDWebImage. However the taps on the
cards and the callbacks of the loads interleave, a card shows the photo of its lit bar or none.
-/

namespace CloneProjects.Tinder.CardPhotos

open CallTable (All)
open EventRun (run Guarded)

variable {Image : Type}

/-- The cards in the order they were made; the number of a card is that of its image view. -/
structure World (Image : Type) where
  cards : List Card
  images : SDWebImage.World Image

inductive Event (Image : Type)
  /-- A document of a query's result gets its card. -/
  | createProfileFromUser (userData : Infos)
  | catchTheTap (k : ℕ) (tap : Tap)
  /-- A callback of the manager. -/
  | images (e : SDWebImage.Event Image)

section step
variable (accepts : String → Bool)

/-- Binding a card shows its first image. -/
def World.createProfileFromUser (w : World Image) (userData : Infos) : World Image :=
  let card := cardOf accepts userData
  { cards := w.cards ++ [card]
    images := w.images.showImage accepts w.cards.length (card.userViewModel.imageNames.head?.getD "") }

/-- A tap on card `k`: its observer shows the image at the new index. -/
def World.catchTheTap (w : World Image) (k : ℕ) (tap : Tap) : Option (World Image) := do
  let card ← w.cards[k]?
  let card ← card.catchTheTap tap
  let imageURL ← subscript card.userViewModel.imageNames card.displayIndex
  some { cards := w.cards.set k card, images := w.images.showImage accepts k imageURL }

def step (w : World Image) : Event Image → Option (World Image)
  | .createProfileFromUser userData => some (w.createProfileFromUser accepts userData)
  | .catchTheTap k tap => w.catchTheTap accepts k tap
  -- the image views belong to the cards: no one else loads into them
  | .images (.sd_setImage _ _) => none
  | .images e => do
    let images ← SDWebImage.step w.images e
    some { w with images := images }

end step

/-! ### The view and the card agree -/

/-- What the disk and the network deliver is a picture of the URL it was asked for. -/
def Delivers (Of : SDWebImage.URL → Image → Prop) (w : World Image) : Event Image → Prop
  | .images e => SDWebImage.Delivers Of w.images e
  | _ => True

/-- A card between two taps: its observer is installed, and where `URL(string:)` accepts all its images it is
`showing` one of them. -/
structure Proper (accepts : String → Bool) (card : Card) : Prop where
  observer : card.displayIndexObserver = some (observeDisplayIndex accepts)
  showing : card.userViewModel.imageNames ≠ [] → (∀ url ∈ card.userViewModel.imageNames, accepts url = true) →
    ∃ i : ℤ, 0 ≤ i ∧ i < card.userViewModel.imageNames.length ∧ card = Card.showing accepts card.userViewModel i

section
variable {accepts : String → Bool} {w w' : World Image} {e : Event Image} {es : List (Event Image)} {k : ℕ}

theorem setImage_imgProfile (view : ProfileView) (imageURL : String) : (view.setImage accepts imageURL).imgProfile =
    if accepts imageURL = true then some imageURL else view.imgProfile := by
  unfold ProfileView.setImage
  split <;> rfl

/-- A tap keeps the view model and the observer, and gives the image view the URL at its new index. -/
theorem catchTheTap_eq_some {card card' : Card} {tap : Tap}
    (hobserver : card.displayIndexObserver = some (observeDisplayIndex accepts))
    (htap : card.catchTheTap tap = some card') : ∃ imageURL,
      subscript card'.userViewModel.imageNames card'.displayIndex = some imageURL ∧
      card'.userViewModel = card.userViewModel ∧ card'.displayIndexObserver = card.displayIndexObserver ∧
      card'.view.imgProfile = if accepts imageURL = true then some imageURL else card.view.imgProfile := by
  have hset : ∀ index, card.setDisplayIndex index = some card' → ∃ imageURL,
      subscript card'.userViewModel.imageNames card'.displayIndex = some imageURL ∧
      card'.userViewModel = card.userViewModel ∧ card'.displayIndexObserver = card.displayIndexObserver ∧
      card'.view.imgProfile = if accepts imageURL = true then some imageURL else card.view.imgProfile := by
    intro index hindex
    simp only [Card.setDisplayIndex, hobserver, observeDisplayIndex, Option.bind_eq_bind, Option.bind_eq_some_iff,
      Option.some.injEq, Option.getD_some] at hindex
    obtain ⟨imageURL, himage, view, ⟨bar, _, rfl⟩, rfl⟩ := hindex
    exact ⟨imageURL, himage, rfl, hobserver.symm, setImage_imgProfile _ _⟩
  unfold Card.catchTheTap at htap
  split at htap
  · exact hset _ htap
  · exact hset _ htap

theorem Proper.catchTheTap {card card' : Card} {tap : Tap} (h : Proper accepts card)
    (htap : card.catchTheTap tap = some card') : Proper accepts card' := by
  obtain ⟨_, _, hviewModel, hobserver, _⟩ := catchTheTap_eq_some h.observer htap
  refine ⟨hobserver.trans h.observer, fun hne haccepts => ?_⟩
  rw [hviewModel] at hne haccepts ⊢
  obtain ⟨i, h0, hn, hshowing⟩ := h.showing hne haccepts
  have hpos : (0 : ℤ) < card.userViewModel.imageNames.length := by omega
  rw [hshowing, showing_catchTheTap haccepts h0 hn] at htap
  exact ⟨_, Int.emod_nonneg _ hpos.ne', Int.emod_lt_of_pos _ hpos, (Option.some.inj htap).symm⟩

theorem proper_cardOf (userData : Infos) : Proper accepts (cardOf accepts userData) := by
  refine ⟨rfl, fun hne haccepts => ⟨0, le_rfl, ?_, setUserViewModel_eq_showing hne haccepts⟩⟩
  have hlength := List.length_pos_iff.mpr hne
  omega

theorem cardOf_imgProfile (userData : Infos) : (cardOf accepts userData).view.imgProfile =
    if accepts ((cardOf accepts userData).userViewModel.imageNames.head?.getD "") = true then
      some ((cardOf accepts userData).userViewModel.imageNames.head?.getD "") else none := by
  simp only [cardOf, ProfileView.setUserViewModel, setImage_imgProfile]
  rfl

/-- The image view of every card was last asked for the URL the card says. -/
structure Agrees (accepts : String → Bool) (w : World Image) : Prop where
  consistent : w.images.Consistent
  cards : All (fun k card => Proper accepts card ∧ (w.images.views k).sd_imageURL = card.view.imgProfile) w.cards
  unused : ∀ k, w.cards.length ≤ k → (w.images.views k).sd_imageURL = none

/-- A callback of the manager loads nothing. -/
theorem step_images {e : SDWebImage.Event Image} (hstep : step accepts w (.images e) = some w') :
    (∀ v url, e ≠ .sd_setImage v url) ∧ ∃ images, SDWebImage.step w.images e = some images ∧
      w' = { w with images := images } := by
  cases e with
  | sd_setImage v url => cases hstep
  | queryDisk | diskQueried | queryDone | downloaded | evicted =>
    simp only [step, Option.bind_eq_bind, Option.bind_eq_some_iff, Option.some.injEq] at hstep
    obtain ⟨images, himages, rfl⟩ := hstep
    exact ⟨by simp, images, himages, rfl⟩

theorem step_agrees (h : Agrees accepts w) (hstep : step accepts w e = some w') : Agrees accepts w' := by
  cases e with
  | createProfileFromUser userData =>
    cases hstep
    refine ⟨h.consistent.showImage _, ?_, fun j hj => ?_⟩
    · refine CallTable.All.concat (fun j card hcard => ⟨(h.cards j card hcard).1, ?_⟩) ⟨proper_cardOf userData, ?_⟩
      · have hj : j < w.cards.length := (List.getElem?_eq_some_iff.mp hcard).1
        simp only [World.createProfileFromUser, SDWebImage.World.showImage_sd_imageURL]
        rw [if_neg fun h' => by omega, (h.cards j card hcard).2]
      · simp only [World.createProfileFromUser, SDWebImage.World.showImage_sd_imageURL, true_and]
        rw [cardOf_imgProfile, h.unused _ le_rfl]
    · simp only [World.createProfileFromUser, List.length_append, List.length_singleton] at hj
      simp only [World.createProfileFromUser, SDWebImage.World.showImage_sd_imageURL]
      rw [if_neg fun h' => by omega, h.unused j (by omega)]
  | catchTheTap k tap =>
    simp only [step, World.catchTheTap, Option.bind_eq_bind, Option.bind_eq_some_iff, Option.some.injEq] at hstep
    obtain ⟨card, hcard, card', htap, imageURL, himage, rfl⟩ := hstep
    obtain ⟨hproper, hview⟩ := h.cards k card hcard
    obtain ⟨imageURL', himage', _, _, hprofile⟩ := catchTheTap_eq_some hproper.observer htap
    rw [himage, Option.some.injEq] at himage'
    subst himage'
    refine ⟨h.consistent.showImage _, fun j card₁ hcard₁ => ?_, fun j hj => ?_⟩
    · dsimp only at hcard₁ ⊢
      rw [List.getElem?_set] at hcard₁
      by_cases hj : k = j
      · subst hj
        rw [if_pos rfl, if_pos (List.getElem?_eq_some_iff.mp hcard).1, Option.some.injEq] at hcard₁
        subst hcard₁
        refine ⟨hproper.catchTheTap htap, ?_⟩
        simp only [SDWebImage.World.showImage_sd_imageURL, true_and]
        rw [hprofile, hview]
      · rw [if_neg hj] at hcard₁
        refine ⟨(h.cards j card₁ hcard₁).1, ?_⟩
        rw [SDWebImage.World.showImage_sd_imageURL, if_neg fun h' => hj h'.1.symm, (h.cards j card₁ hcard₁).2]
    · have hk : k < w.cards.length := (List.getElem?_eq_some_iff.mp hcard).1
      rw [List.length_set] at hj
      dsimp only
      rw [SDWebImage.World.showImage_sd_imageURL, if_neg fun h' => by omega, h.unused j hj]
  | images e =>
    obtain ⟨hload, images, himages, rfl⟩ := step_images hstep
    have hkeeps := (SDWebImage.step_keeps himages hload).1
    refine ⟨SDWebImage.step_consistent h.consistent himages, fun j card hcard => ?_, fun j hj => ?_⟩
    · exact ⟨(h.cards j card hcard).1, (hkeeps j).2.trans (h.cards j card hcard).2⟩
    · exact (hkeeps j).2.trans (h.unused j hj)

/-- No card yet. -/
def opened (images : SDWebImage.World Image) : World Image := ⟨[], images⟩

variable {Of : SDWebImage.URL → Image → Prop} {images : SDWebImage.World Image}

theorem run_agrees (hstart : images.Start Of) :
    run (step accepts) (opened images) es = some w → Agrees accepts w := by
  refine EventRun.run_invariant (fun _ _ _ hs hstep => step_agrees hs hstep) ⟨?_, CallTable.all_nil, ?_⟩
  · exact SDWebImage.run_consistent hstart (rfl : run SDWebImage.step images [] = some images)
  · exact fun k _ => (hstart.views k).1

theorem step_pictures (h : w.images.Pictures Of) (hstep : step accepts w e = some w') (hdelivers : Delivers Of w e) :
    w'.images.Pictures Of := by
  cases e with
  | createProfileFromUser userData =>
    cases hstep
    exact h.showImage _
  | catchTheTap k tap =>
    simp only [step, World.catchTheTap, Option.bind_eq_bind, Option.bind_eq_some_iff, Option.some.injEq] at hstep
    obtain ⟨_, _, _, _, imageURL, _, rfl⟩ := hstep
    exact h.showImage imageURL
  | images e =>
    obtain ⟨_, images, himages, rfl⟩ := step_images hstep
    exact SDWebImage.step_pictures h himages hdelivers

/-- **The photos of the deck.** In every interleaving of new cards, taps and callbacks: a card with photos has
lit the bar of its index, its image view was last asked for the URL at the index and shows exactly what that
load has been answered with so far, which is a picture of that URL. -/
theorem card_shows_lit_photo (hstart : images.Start Of) (hrun : run (step accepts) (opened images) es = some w)
    (hdelivers : Guarded (step accepts) (fun _ w e => Delivers Of w e) (opened images) es) {card : Card}
    (hcard : w.cards[k]? = some card) (hne : card.userViewModel.imageNames ≠ [])
    (haccepts : ∀ url ∈ card.userViewModel.imageNames, accepts url = true) :
    ∃ url, subscript card.userViewModel.imageNames card.displayIndex = some url ∧
      (∀ j : ℕ, card.view.imageBarStackView[j]? = some .white ↔ (j : ℤ) = card.displayIndex) ∧
      ∃ (i : ℕ) (op : SDWebImage.Operation Image), w.images.operations[i]? = some op ∧ op.view = k ∧ op.url = url ∧
        op.isCancelled = false ∧ (w.images.views k).image = op.stage.answer ∧
        ∀ image, (w.images.views k).image = some image → Of url image := by
  have hagrees : Agrees accepts w := run_agrees hstart hrun
  have hpictures : w.images.Pictures Of := by
    refine EventRun.guarded_induction (P := fun _ w => w.images.Pictures Of) ⟨hstart.memory, ?_⟩
      (fun _ s e s' _ hC hs hstep => step_pictures hs hstep hC) hrun hdelivers
    rw [opened, hstart.operations]
    exact CallTable.all_nil
  obtain ⟨hproper, hview⟩ := hagrees.cards k card hcard
  obtain ⟨i, h0, hn, hshowing⟩ := hproper.showing hne haccepts
  obtain ⟨url, hurl⟩ := Option.isSome_iff_exists.mp (subscript_isSome.mpr ⟨h0, hn⟩)
  have hindex : card.displayIndex = i := by rw [hshowing, Card.showing]
  have hprofile : card.view.imgProfile = some url := by
    rw [hshowing, Card.showing, hurl]
  have hloaded : (w.images.views k).sd_imageURL = some url := by rw [hview, hprofile]
  obtain ⟨i, op, _, hop, hopview, hopurl, hlive, himage⟩ := hagrees.consistent.current k url hloaded
  refine ⟨url, by rw [hindex, hurl], fun j => ?_, i, op, hop, hopview, hopurl, hlive, himage, fun image h => ?_⟩
  · rw [hindex, hshowing]
    exact showing_bar h0 hn j
  · exact hpictures.of_image hagrees.consistent hloaded h

/-- The stored photos `a` and `b`. -/
def twoPhotos (key : String) : Option FieldValue :=
  if key = "ImageURL" then some (.string "a") else if key = "ImageURL2" then some (.string "b") else none

/-- The card moves on to `b`, and the picture `a` comes late. -/
def latePicture : List (Event String) :=
  [.createProfileFromUser twoPhotos, .images (.queryDisk 0), .images (.diskQueried 0 none), .images (.queryDone 0),
    .catchTheTap 0 ⟨300, 350⟩, .images (.downloaded 0 (.ok (some "a"))), .images (.queryDisk 1),
    .images (.diskQueried 1 (some "b")), .images (.queryDone 1)]

theorem card_shows_lit_photo_latePicture : ∃ (w : World String) (card : Card),
    run (step fun text => text ≠ "") (opened .blank) latePicture = some w ∧ w.cards[0]? = some card ∧
    (w.images.views 0).image = some "b" ∧
    ∃ url, subscript card.userViewModel.imageNames card.displayIndex = some url ∧
      (∀ j : ℕ, card.view.imageBarStackView[j]? = some .white ↔ (j : ℤ) = card.displayIndex) ∧
      ∃ (i : ℕ) (op : SDWebImage.Operation String), w.images.operations[i]? = some op ∧ op.view = 0 ∧
        op.url = url ∧ op.isCancelled = false ∧ (w.images.views 0).image = op.stage.answer ∧
        ∀ image, (w.images.views 0).image = some image → image = url := by
  have hstart : SDWebImage.World.blank.Start fun url image => image = url :=
    ⟨fun _ => ⟨rfl, rfl⟩, rfl, by simp [SDWebImage.World.blank]⟩
  have hnext : Tap.nextDisplayTransition ⟨300, 350⟩ = true := by norm_num [Tap.nextDisplayTransition]
  have htap : ∀ w : World String, step (fun text => text ≠ "") w (.catchTheTap 0 ⟨300, 350⟩) = (do
      let card ← w.cards[0]?
      let card ← card.getNextDisplay
      let imageURL ← subscript card.userViewModel.imageNames card.displayIndex
      some ⟨w.cards.set 0 card, w.images.showImage (fun text => text ≠ "") 0 imageURL⟩) := by
    intro w
    simp only [step, World.catchTheTap, Card.catchTheTap, hnext, if_true]
  obtain ⟨w, hrun, card, hcard, himages, himage⟩ : ∃ w : World String,
      run (step fun text => text ≠ "") (opened .blank) latePicture = some w ∧ ∃ card, w.cards[0]? = some card ∧
      card.userViewModel.imageNames = ["a", "b"] ∧ (w.images.views 0).image = some "b" := by
    simp only [latePicture, EventRun.run_cons, htap]
    exact ⟨_, rfl, _, rfl, rfl, rfl⟩
  refine ⟨w, card, hrun, hcard, himage, card_shows_lit_photo hstart hrun ?_ hcard ?_ ?_⟩
  · iterate 4 refine (EventRun.guarded_cons rfl).mpr ⟨?_, ?_⟩; swap
    · refine (EventRun.guarded_cons ((htap _).trans rfl)).mpr ⟨trivial, ?_⟩
      iterate 4 refine (EventRun.guarded_cons rfl).mpr ⟨?_, ?_⟩; swap
      · exact EventRun.guarded_nil
      all_goals first | trivial | (rintro op ⟨⟩; rfl)
    all_goals trivial
  · simp [himages]
  · simp [himages]

end

end CloneProjects.Tinder.CardPhotos
