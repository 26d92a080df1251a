import CloneProjects.Tinder.Register.ViewModel
import CloneProjects.Tinder.Settings.Screen
import Mathlib.Tactic.FinCases

/-!
# The profile codec

`User.init` reads a `Users` document, `dataToBeAdded` and `datas` write one. A document survives reading and
writing where its values have the types the reader expects; a field that was absent comes back as the
placeholder of `datas`, which the reader takes for a value.
-/

namespace CloneProjects.Tinder.Settings

open Register (RegisterViewModel)

/-- The keys of a profile that hold a text, and those that hold a number. -/
def textKeys : List String := ["NameSurname", "ImageURL", "ImageURL2", "ImageURL3", "Job"]

def numberKeys : List String := ["Age", "MinimumAge", "MaximumAge"]

/-- The key of a slot's URL. -/
def Slot.key : Slot → String
  | .area1 => "ImageURL"
  | .area2 => "ImageURL2"
  | .area3 => "ImageURL3"

/-- The keys that only a Settings save writes. -/
def optionalKeys : List String := ["ImageURL2", "ImageURL3", "Age", "Job", "MinimumAge", "MaximumAge"]

/-- If a profile key is present, it holds a value of its type. -/
structure WellTyped (infos : Infos) (key : String) : Prop where
  text : key ∈ textKeys → ∀ value, infos key = some value → ∃ text, value = .string text
  number : key ∈ numberKeys → ∀ value, infos key = some value → ∃ n, value = .integer n

/-! ### Writing and reading -/

/-- What is read back of a save: the placeholders have become values. -/
theorem init_datas (uid : String) (user : User) : User.init (datas uid (some user)) =
    { userName := some (user.userName.getD "No Name Surname")
      age := some (user.age.getD (-1))
      job := some (user.job.getD "NULL")
      imageURL1 := some (user.imageURL1.getD "")
      imageURL2 := some (user.imageURL2.getD "")
      imageURL3 := some (user.imageURL3.getD "")
      userID := uid
      searchMinAge := some (user.searchMinAge.getD (-1))
      searchMaxAge := some (user.searchMaxAge.getD (-1)) } := rfl

theorem some_getD_eq_self {α : Type} {x : Option α} {a : α} : some (x.getD a) = x ↔ x.isSome = true := by
  cases x with
  | none => simp
  | some b => simp

/-- A user comes back from a save unchanged exactly when it is the same user and every field but the name,
which reading always fills, has a value. -/
theorem init_datas_eq_self_iff {uid : String} {infos : Infos} :
    User.init (datas uid (some (User.init infos))) = User.init infos ↔
      uid = (User.init infos).userID ∧ (∀ slot : Slot, (slot.imageURL (User.init infos)).isSome) ∧
        (User.init infos).age.isSome ∧ (User.init infos).job.isSome ∧
        (User.init infos).searchMinAge.isSome ∧ (User.init infos).searchMaxAge.isSome := by
  constructor
  · intro heq
    refine ⟨congrArg User.userID heq, fun slot => ?_, some_getD_eq_self.mp (congrArg User.age heq),
      some_getD_eq_self.mp (congrArg User.job heq), some_getD_eq_self.mp (congrArg User.searchMinAge heq),
      some_getD_eq_self.mp (congrArg User.searchMaxAge heq)⟩
    cases slot with
    | area1 => exact some_getD_eq_self.mp (congrArg User.imageURL1 heq)
    | area2 => exact some_getD_eq_self.mp (congrArg User.imageURL2 heq)
    | area3 => exact some_getD_eq_self.mp (congrArg User.imageURL3 heq)
  · rintro ⟨hid, hslot, hage, hjob, hmin, hmax⟩
    have hname : some ((User.init infos).userName.getD "No Name Surname") = (User.init infos).userName := rfl
    have h1 : some ((User.init infos).imageURL1.getD "") = _ := some_getD_eq_self.mpr (hslot .area1)
    have h2 : some ((User.init infos).imageURL2.getD "") = _ := some_getD_eq_self.mpr (hslot .area2)
    have h3 : some ((User.init infos).imageURL3.getD "") = _ := some_getD_eq_self.mpr (hslot .area3)
    rw [init_datas, hname, h1, h2, h3, some_getD_eq_self.mpr hage, some_getD_eq_self.mpr hjob,
      some_getD_eq_self.mpr hmin, some_getD_eq_self.mpr hmax, hid]

/-! ### The documents of the app -/

/-- The documents the app writes for the user `uid`: by a registration, or by a save of whatever the Settings
screen holds. -/
inductive Written (uid : String) : Infos → Prop
  | registered (viewModel : RegisterViewModel) (imageURL : String) :
    Written uid (viewModel.dataToBeAdded imageURL uid)
  | saved (currentUser : Option User) : Written uid (datas uid currentUser)

/-- **Round trip.** A document of the app survives reading, saving without an edit and reading again exactly
when it has the keys that only a save writes. -/
theorem written_roundTrip_iff {uid : String} {infos : Infos} (hwritten : Written uid infos) :
    User.init (datas uid (some (User.init infos))) = User.init infos ↔
      ∀ key ∈ optionalKeys, (infos key).isSome := by
  rw [init_datas_eq_self_iff]
  cases hwritten with
  | registered viewModel imageURL =>
    constructor
    · rintro ⟨_, _, hage, _⟩
      cases hage
    · intro hkeys
      have hage := hkeys "Age" (by decide)
      cases hage
  | saved currentUser =>
    constructor
    · intro _ key hkey
      fin_cases hkey <;> rfl
    · intro _
      refine ⟨rfl, fun slot => ?_, rfl, rfl, rfl, rfl⟩
      cases slot <;> rfl

/-- A profile saved once survives every later save. -/
theorem saved_roundTrip :
    User.init (datas "uid" (some (User.init (datas "uid" none)))) = User.init (datas "uid" none) :=
  (written_roundTrip_iff (.saved none)).mpr fun key hkey => by fin_cases hkey <;> rfl

/-- A registered profile does not: its absent age comes back as `-1`. -/
theorem registered_roundTrip_fails : ¬ ∀ uid infos, Written uid infos →
    User.init (datas uid (some (User.init infos))) = User.init infos := by
  intro h
  have hage := congrArg User.age
    (h "uid" _ (.registered ⟨some "a@b.c", some "Ada", some "secret"⟩ "https://host/image"))
  have hvalue : some (-1 : ℤ) = none := hage
  cases hvalue

/-! ### One key at a time -/

/-- A value of the right type is written back as it was read. -/
theorem datas_init_of_wellTyped {uid key : String} {infos : Infos} (htyped : WellTyped infos key)
    (hkey : key ∈ textKeys ++ numberKeys) :
    infos key = none ∨ datas uid (some (User.init infos)) key = infos key := by
  cases hvalue : infos key with
  | none => exact .inl rfl
  | some value =>
    refine .inr ?_
    rcases List.mem_append.mp hkey with htext | hnumber
    · obtain ⟨text, rfl⟩ := htyped.text htext value hvalue
      have hread : infos.string key = some text := Infos.string_eq_some.mpr hvalue
      fin_cases htext <;> simp [datas, dictionary, List.lookup_cons, User.init, hread]
    · obtain ⟨n, rfl⟩ := htyped.number hnumber value hvalue
      have hread : infos.int key = some n := by rw [Infos.int, hvalue]; rfl
      fin_cases hnumber <;> simp [datas, dictionary, List.lookup_cons, User.init, hread]

/-- The placeholders are written back as they were. -/
theorem datas_init_none {uid key : String} (hkey : key ∈ textKeys ++ numberKeys) :
    datas uid (some (User.init (datas uid none))) key = datas uid none key := by
  fin_cases hkey <;> rfl

/-- A profile with a photo, an age and a job, for the examples of runs. -/
def storedProfile : Infos := dictionary [
  ("UserID", .string "uid"), ("NameSurname", .string "Ada"), ("ImageURL", .string "https://host/image"),
  ("Age", .integer 30), ("Job", .string "Engineer")]

def storedUsers : String → Option Infos := Function.update (fun _ => none) "uid" (some storedProfile)

theorem wellTyped_storedProfile_age : WellTyped storedProfile "Age" where
  text htext := absurd htext (by decide)
  number _ value hvalue := ⟨30, (Option.some.inj hvalue).symm⟩

end CloneProjects.Tinder.Settings
