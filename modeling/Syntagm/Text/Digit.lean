import Syntagm.Text.Remainder

/-!
# Digits

Reading numbers that are written with decimal or hexadecimal digits.
-/

namespace Syntagm.Text

/-- The value of a hexadecimal digit of either case. -/
def hexDigit? (c : Char) : Option Nat :=
  if '0' ≤ c ∧ c ≤ '9' then some (c.toNat - '0'.toNat)
  else if 'a' ≤ c ∧ c ≤ 'f' then some (c.toNat - 'a'.toNat + 10)
  else if 'A' ≤ c ∧ c ≤ 'F' then some (c.toNat - 'A'.toNat + 10)
  else none

/-- The number that a run of hexadecimal digits denotes; other characters count as `0`. -/
def hexNumber (digits : List Char) : Nat :=
  digits.foldl (fun n c => 16 * n + (hexDigit? c).getD 0) 0

/-- The number that a run of hexadecimal digits denotes, unless it is empty or holds
another character. -/
def hexNumber? (digits : List Char) : Option Nat :=
  if digits.isEmpty then none
  else digits.foldl (fun n c => do return 16 * (← n) + (← hexDigit? c)) (some 0)

/-- The decimal digits a text starts with, and the text after them. -/
def splitDigits (text : List Char) : List Char × NotLonger text := spanWhile Char.isDigit text

/-- The number that a run of decimal digits denotes. -/
def decimalNumber (digits : List Char) : Nat :=
  digits.foldl (fun n c => 10 * n + (c.toNat - '0'.toNat)) 0

/-- The character with the given code point, unless it is a surrogate or out of range. -/
def scalar? (point : Nat) : Option Char :=
  if h : point.isValidChar then some ⟨point.toUInt32, by
    have hlt : point < UInt32.size := by
      rcases h with h | ⟨_, h⟩ <;> (simp [UInt32.size]; omega)
    simpa [UInt32.isValidChar, Nat.toUInt32, UInt32.toNat_ofNat_of_lt' hlt] using h⟩
  else none

end Syntagm.Text
