import CloneProjects.Firebase

/-!
# The user and its card

`User` decodes a `Users` document; `createUserProfileViewModel` turns it into what a card shows.
-/

namespace CloneProjects.Tinder

structure User where
  userName : Option String
  job : Option String
  age : Option ℤ
  imageURL1 : Option String
  imageURL2 : Option String
  imageURL3 : Option String
  userID : String
  searchMinAge : Option ℤ
  searchMaxAge : Option ℤ
  deriving DecidableEq

/-- `User(infos:)`: a field of the wrong type reads as absent, and the two names read as empty. -/
def User.init (infos : Infos) : User where
  userName := some ((infos.string "NameSurname").getD "")
  age := infos.int "Age"
  job := infos.string "Job"
  imageURL1 := infos.string "ImageURL"
  imageURL2 := infos.string "ImageURL2"
  imageURL3 := infos.string "ImageURL3"
  userID := (infos.string "UserID").getD ""
  searchMinAge := infos.int "MinimumAge"
  searchMaxAge := infos.int "MaximumAge"

/-- What `Firestore.getByCurrentUser` completes with, given what `getDocument` brought: an error, or the data
of the document if there is one. -/
def getByCurrentUser : Except SwiftError (Option Infos) → Except SwiftError User
  | .error error => .error error
  | .ok none => .error ⟨"User Not Found"⟩
  | .ok (some informations) => .ok (User.init informations)

inductive NSTextAlignment
  | left
  | center
  deriving DecidableEq

/-- What the card of a user or an advertisement shows (the text without its fonts). The class's mutable
part, `displayIndex` and its observer, is kept by the card. -/
structure UserProfileViewModel where
  attributedString : String
  imageNames : List String
  infoLocation : NSTextAlignment
  deriving DecidableEq

/-- The URL appended by one of the three tests of `createUserProfileViewModel`. -/
def nonEmptyURL : Option String → List String
  | some url => if url.isEmpty then [] else [url]
  | none => []

def User.createUserProfileViewModel (user : User) : UserProfileViewModel :=
  let ageString := match user.age with
    | some age => toString age
    | none => "**"
  let jobString := match user.job with
    | some job => job
    | none => "No information"
  { attributedString := user.userName.getD "" ++ s!" {ageString}" ++ s!"\n{jobString}"
    imageNames := nonEmptyURL user.imageURL1 ++ nonEmptyURL user.imageURL2 ++ nonEmptyURL user.imageURL3
    infoLocation := .left }

theorem mem_nonEmptyURL {url : String} {field : Option String} :
    url ∈ nonEmptyURL field ↔ field = some url ∧ url ≠ "" := by
  cases field with
  | none => simp [nonEmptyURL]
  | some text =>
    simp only [nonEmptyURL, String.isEmpty_iff, Option.some.injEq]
    split
    · rename_i h
      simp only [List.not_mem_nil, false_iff, not_and, not_not]
      rintro rfl
      exact h
    · rename_i h
      rw [List.mem_singleton]
      constructor
      · rintro rfl
        exact ⟨rfl, h⟩
      · rintro ⟨rfl, _⟩
        rfl

/-- The card shows exactly the URLs stored as non-empty strings. -/
theorem mem_imageNames {infos : Infos} {url : String} :
    url ∈ (User.init infos).createUserProfileViewModel.imageNames ↔
      url ≠ "" ∧ ∃ key ∈ ["ImageURL", "ImageURL2", "ImageURL3"], infos key = some (.string url) := by
  simp only [User.createUserProfileViewModel, User.init, List.mem_append, mem_nonEmptyURL,
    Infos.string_eq_some, List.mem_cons, List.not_mem_nil, or_false, exists_eq_or_imp, exists_eq_left]
  tauto

end CloneProjects.Tinder
