import CloneProjects.Firebase

/-!
# The registration view model

`RegisterViewModel` is a struct: closures capture copies of its three texts. Its three `Bindable`s are class
instances, shared by all the copies, so they are kept by the screen and not here.
-/

namespace CloneProjects.Tinder.Register

/-- `Bindable<K>`, whose observer acts on the widgets of a screen. -/
structure Bindable (K UI : Type) where
  value : Option K
  observer : Option (Option K → UI → UI)

namespace Bindable
variable {K UI : Type}

/-- `Bindable<K>()`. -/
def fresh : Bindable K UI := ⟨none, none⟩

def setValue (bindable : Bindable K UI) (observer : Option K → UI → UI) : Bindable K UI :=
  { bindable with observer := some observer }

/-- An assignment to `value`, with the observer it tells. -/
def assign (bindable : Bindable K UI) (value : Option K) (ui : UI) : Bindable K UI × UI :=
  ({ bindable with value := value },
    match bindable.observer with
    | some observer => observer value ui
    | none => ui)

end Bindable

structure RegisterViewModel where
  emailAdress : Option String
  nameSurname : Option String
  password : Option String
  deriving DecidableEq

/-- `RegisterViewModel()`. -/
def RegisterViewModel.fresh : RegisterViewModel := ⟨none, none, none⟩

/-- `text?.isEmpty == false`. -/
def isFilled (text : Option String) : Bool := text.map (·.isEmpty) == some false

/-- What `controlOfValidData` puts in `bindableValidOfRegisterDatas`. -/
def RegisterViewModel.valid (viewModel : RegisterViewModel) : Bool :=
  isFilled viewModel.emailAdress && isFilled viewModel.nameSurname && isFilled viewModel.password

/-- The dictionary `userInfoSaveToFirebase` writes. -/
def RegisterViewModel.dataToBeAdded (viewModel : RegisterViewModel) (imageURL userID : String) : Infos :=
  dictionary [
    ("NameSurname", .string (viewModel.nameSurname.getD "")),
    ("ImageURL", .string imageURL),
    ("UserID", .string userID)]

end CloneProjects.Tinder.Register
