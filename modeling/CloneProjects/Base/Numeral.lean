import Mathlib.Algebra.Ring.Int.Defs

/-!
# Decimal numerals of 64-bit integers

`parseInt` reads an optional sign and decimal digits, and rejects what does not fit in 64 bits; it inverts
printing (`parseInt_toString`).
-/

namespace CloneProjects.Numeral

/-- The values of a 64-bit signed integer. -/
def FitsInt (n : ℤ) : Prop := -2 ^ 63 ≤ n ∧ n < 2 ^ 63

instance (n : ℤ) : Decidable (FitsInt n) := inferInstanceAs (Decidable (_ ∧ _))

/-- One or more decimal digits, and nothing else. -/
def digits (text : List Char) : Option ℕ :=
  if text ≠ [] ∧ text.all Char.isDigit then some (Nat.ofDigitChars 10 text 0) else none

/-- An optional sign before the digits. -/
def signed : List Char → Option ℤ
  | '-' :: text => (digits text).map fun n => -(n : ℤ)
  | '+' :: text => (digits text).map fun n => (n : ℤ)
  | text => (digits text).map fun n => (n : ℤ)

def parseInt (text : String) : Option ℤ := (signed text.toList).filter fun n => FitsInt n

theorem digits_toDigits (n : ℕ) : digits (Nat.toDigits 10 n) = some n := by
  have hdigit : (Nat.toDigits 10 n).all Char.isDigit = true := by
    rw [List.all_eq_true]
    exact fun c hc => Nat.isDigit_of_mem_toDigits (by omega) (by omega) hc
  rw [digits, if_pos ⟨by simp, hdigit⟩, Nat.ofDigitChars_ten_toDigits]

/-- A numeral starts with a digit, so it is never read as a signed one. -/
theorem signed_toDigits (n : ℕ) : signed (Nat.toDigits 10 n) = some (n : ℤ) := by
  have hread := digits_toDigits n
  have hdigit : ∀ c ∈ Nat.toDigits 10 n, c.isDigit := fun c hc =>
    Nat.isDigit_of_mem_toDigits (by omega) (by omega) hc
  unfold signed
  split
  · rename_i text h
    have := hdigit '-' (by rw [h]; simp)
    simp at this
  · rename_i text h
    have := hdigit '+' (by rw [h]; simp)
    simp at this
  · rw [hread]
    rfl

theorem signed_toString (n : ℤ) : signed (toString n).toList = some n := by
  cases n with
  | ofNat n =>
    rw [show (toString (Int.ofNat n)).toList = Nat.toDigits 10 n by simp [toString, Int.repr, Nat.repr]]
    exact signed_toDigits n
  | negSucc n =>
    rw [show (toString (Int.negSucc n)).toList = '-' :: Nat.toDigits 10 (n + 1) by
      simp [toString, Int.repr, Nat.repr]]
    simp only [signed, digits_toDigits]
    rfl

/-- Reading back what was printed. -/
theorem parseInt_toString {n : ℤ} (h : FitsInt n) : parseInt (toString n) = some n := by
  rw [parseInt, signed_toString]
  simp [h]

end CloneProjects.Numeral
