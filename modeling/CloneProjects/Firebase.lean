import CloneProjects.Base.Numeral
import Mathlib.Data.Rat.Defs

/-!
# What the apps get from Firebase and Foundation

The untyped documents of Firestore, the casts the apps read them with, and the plain data (errors, images)
that passes through the callbacks.
-/

namespace CloneProjects

/-- A stored value, as `data()` hands it to the app inside a `[String : Any]`. -/
inductive FieldValue
  | string (text : String)
  | integer (n : ℤ)
  | double (x : ℚ)
  | boolean (b : Bool)
  | null
  /-- Timestamps, references, arrays and maps: no cast of the apps accepts them. -/
  | other
  deriving DecidableEq

/-- `as? String`. -/
def FieldValue.asString : FieldValue → Option String
  | .string text => some text
  | _ => none

/-- `as? Int`: numbers and booleans arrive as `NSNumber`, which bridges to `Int` exactly when the integer
has the same value. -/
def FieldValue.asInt : FieldValue → Option ℤ
  | .integer n => some n
  | .double x => if x.den = 1 ∧ Numeral.FitsInt x.num then some x.num else none
  | .boolean b => some (if b then 1 else 0)
  | _ => none

/-- A document's data: a value for some of the keys. -/
abbrev Infos := String → Option FieldValue

/-- A dictionary literal. -/
def dictionary (pairs : List (String × FieldValue)) : Infos := fun key => pairs.lookup key

def Infos.string (infos : Infos) (key : String) : Option String := (infos key).bind FieldValue.asString

def Infos.int (infos : Infos) (key : String) : Option ℤ := (infos key).bind FieldValue.asInt

theorem Infos.string_eq_some {infos : Infos} {key text : String} :
    infos.string key = some text ↔ infos key = some (.string text) := by
  rw [Infos.string, Option.bind_eq_some_iff]
  constructor
  · rintro ⟨value, hvalue, htext⟩
    cases value with
    | string t => rw [hvalue, ← Option.some.inj htext]
    | _ => simp [FieldValue.asString] at htext
  · intro h
    exact ⟨_, h, rfl⟩

/-- The `Error` a callback brings. -/
structure SwiftError where
  localizedDescription : String
  deriving DecidableEq

abbrev Data := List UInt8

/-- A picture, with the bytes `jpegData(compressionQuality: 0.8)` makes of it (the quality is the same
everywhere in the apps); a picture without bitmap data has none. -/
structure UIImage where
  name : String
  jpegData : Option Data
  deriving DecidableEq

end CloneProjects
