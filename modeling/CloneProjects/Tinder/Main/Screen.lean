import CloneProjects.Base.CallTable
import CloneProjects.Base.Run
import CloneProjects.Tinder.ProfileCard

/-!
# The main screen

`MainViewController` as a state machine. Its deck of cards is cleared by `getByCurrentUser` and by Refresh and
filled by the callbacks of profile queries; a query is issued by Refresh or by the callback of a user fetch.
Fetches and queries are numbered in the order they were issued, and a card remembers the query it came from.
-/

namespace CloneProjects.Tinder.Main

/-- A subview of `profileMainView`. -/
structure Subview where
  card : Card
  /-- The query whose callback added it. -/
  query : ℕ

structure MainViewController where
  currentUser : Option User
  profileMainView : List Subview
  usersProfileViewModel : List UserProfileViewModel
  lastIncomingUser : Option User

/-- One user fetch of `getByCurrentUser`. -/
structure Fetch where
  pending : Bool
  deriving DecidableEq

/-- One query of `getByUserInfoFromFirestore`: the ages between which it asks for profiles. -/
structure Query where
  searchingMinAge : ℤ
  searchingMaxAge : ℤ
  pending : Bool
  hudShown : Bool
  deriving DecidableEq

structure World where
  /-- `Auth.auth().currentUser?.uid`. -/
  uid : Option String
  screen : MainViewController
  fetches : List Fetch
  queries : List Query

inductive Event
  | refreshPressed
  | settingsSaved
  | fetchCallback (fetch : ℕ) (response : Except SwiftError (Option Infos))
  | queryCallback (query : ℕ) (response : Except SwiftError (List Infos))

/-! ### The controller's functions -/

/-- `removeFromSuperview` for all the cards. -/
def MainViewController.removeSubviews (screen : MainViewController) : MainViewController :=
  { screen with profileMainView := [] }

/-- `getByCurrentUser`, which fetches nothing without a signed-in user. -/
def World.getByCurrentUser (w : World) : World :=
  { w with
    screen := w.screen.removeSubviews
    fetches := match w.uid with
      | some _ => w.fetches ++ [⟨true⟩]
      | none => w.fetches }

/-- `getByUserInfoFromFirestore`: without a search range nothing is queried. -/
def World.getByUserInfoFromFirestore (w : World) : World :=
  match w.screen.currentUser.bind (·.searchMinAge), w.screen.currentUser.bind (·.searchMaxAge) with
  | some searchingMinAge, some searchingMaxAge =>
    { w with queries := w.queries ++ [⟨searchingMinAge, searchingMaxAge, true, true⟩] }
  | _, _ => w

def World.pressRefreshButton (w : World) : World :=
  World.getByUserInfoFromFirestore { w with screen := w.screen.removeSubviews }

/-- The screen after `viewDidLoad`. -/
def viewDidLoad (uid : Option String) : World :=
  World.getByCurrentUser ⟨uid, ⟨none, [], [], none⟩, [], []⟩

section step
variable (accepts : String → Bool)

/-- One document of a query's result: `createProfileFromUser` adds its card on top. -/
def MainViewController.addProfile (query : ℕ) (screen : MainViewController) (userData : Infos) :
    MainViewController :=
  let user := User.init userData
  { screen with
    usersProfileViewModel := screen.usersProfileViewModel ++ [user.createUserProfileViewModel]
    lastIncomingUser := some user
    profileMainView := screen.profileMainView ++ [⟨cardOf accepts userData, query⟩] }

/-- The completion of the user fetch. -/
def World.userFetched (w : World) (response : Except SwiftError (Option Infos)) : World :=
  match Tinder.getByCurrentUser response with
  | .error _ => w
  | .ok user => World.getByUserInfoFromFirestore { w with screen := { w.screen with currentUser := some user } }

/-- The completion of the query, after its HUD is dismissed. -/
def MainViewController.profilesFetched (query : ℕ) (screen : MainViewController) :
    Except SwiftError (List Infos) → MainViewController
  | .error _ => screen
  | .ok documents => documents.foldl (MainViewController.addProfile accepts query) screen

def step (w : World) : Event → Option World
  -- a HUD in the view blocks the button
  | .refreshPressed => if w.queries.any (·.hudShown) then none else some w.pressRefreshButton
  | .settingsSaved => some w.getByCurrentUser
  | .fetchCallback i response =>
    if (w.fetches[i]?).map (·.pending) = some true then
      some (World.userFetched { w with fetches := w.fetches.modify i fun _ => ⟨false⟩ } response)
    else none
  | .queryCallback j response =>
    if (w.queries[j]?).map (·.pending) = some true then
      some { w with
        queries := w.queries.modify j fun query => { query with pending := false, hudShown := false }
        screen := MainViewController.profilesFetched accepts j w.screen response }
    else none

end step

/-! ### What each event can do -/

section
variable {accepts : String → Bool} {w w' : World}

theorem step_refreshPressed (h : step accepts w .refreshPressed = some w') : w' = w.pressRefreshButton := by
  simp only [step] at h
  split at h
  · cases h
  · simpa using h.symm

theorem step_fetchCallback {i : ℕ} {response : Except SwiftError (Option Infos)}
    (h : step accepts w (.fetchCallback i response) = some w') :
    w' = World.userFetched { w with fetches := w.fetches.modify i fun _ => ⟨false⟩ } response := by
  simp only [step] at h
  split at h
  · simpa using h.symm
  · cases h

theorem step_queryCallback {j : ℕ} {response : Except SwiftError (List Infos)}
    (h : step accepts w (.queryCallback j response) = some w') :
    (∃ query, w.queries[j]? = some query ∧ query.pending = true) ∧ w' = { w with
      queries := w.queries.modify j fun query => { query with pending := false, hudShown := false }
      screen := MainViewController.profilesFetched accepts j w.screen response } := by
  simp only [step] at h
  split at h
  · rename_i hpending
    exact ⟨Option.map_eq_some_iff.mp hpending, by simpa using h.symm⟩
  · cases h

/-- A query is issued exactly for a user with a search range. -/
theorem getByUserInfoFromFirestore_cases (w : World) :
    (∃ searchingMinAge searchingMaxAge, w.screen.currentUser.bind (·.searchMinAge) = some searchingMinAge ∧
      w.screen.currentUser.bind (·.searchMaxAge) = some searchingMaxAge ∧
      w.getByUserInfoFromFirestore =
        { w with queries := w.queries ++ [⟨searchingMinAge, searchingMaxAge, true, true⟩] }) ∨
    ((w.screen.currentUser.bind (·.searchMinAge) = none ∨ w.screen.currentUser.bind (·.searchMaxAge) = none) ∧
      w.getByUserInfoFromFirestore = w) := by
  unfold World.getByUserInfoFromFirestore
  split
  · rename_i searchingMinAge searchingMaxAge hmin hmax
    exact .inl ⟨_, _, hmin, hmax, rfl⟩
  · rename_i hnone
    refine .inr ⟨?_, rfl⟩
    cases hmin : w.screen.currentUser.bind (·.searchMinAge) with
    | none => exact .inl rfl
    | some searchingMinAge =>
      cases hmax : w.screen.currentUser.bind (·.searchMaxAge) with
      | none => exact .inr rfl
      | some searchingMaxAge => exact absurd hmax (hnone _ _ hmin)

/-- The cards a query's result adds, in result order. -/
theorem profilesFetched_profileMainView (query : ℕ) (screen : MainViewController)
    (response : Except SwiftError (List Infos)) :
    (MainViewController.profilesFetched accepts query screen response).profileMainView =
      screen.profileMainView ++
        match response with
        | .error _ => []
        | .ok documents => documents.map fun userData => ⟨cardOf accepts userData, query⟩ := by
  cases response with
  | error error => simp [MainViewController.profilesFetched]
  | ok documents =>
    simp only [MainViewController.profilesFetched]
    induction documents generalizing screen with
    | nil => simp
    | cons userData documents ih =>
      rw [List.foldl_cons, ih]
      simp [MainViewController.addProfile]

theorem profilesFetched_currentUser (query : ℕ) (screen : MainViewController)
    (response : Except SwiftError (List Infos)) :
    (MainViewController.profilesFetched accepts query screen response).currentUser = screen.currentUser := by
  cases response with
  | error error => rfl
  | ok documents =>
    simp only [MainViewController.profilesFetched]
    induction documents generalizing screen with
    | nil => rfl
    | cons userData documents ih =>
      rw [List.foldl_cons, ih]
      rfl

end

end CloneProjects.Tinder.Main
