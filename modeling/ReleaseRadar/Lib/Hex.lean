/-!
# Hexadecimal digits

A digit is written in lower case and read in either.
-/

namespace ReleaseRadar.Lib

/-- The digit of a number below 16. -/
def hexDigit (n : Nat) : Char :=
  if n < 10 then Char.ofNat ('0'.toNat + n) else Char.ofNat ('a'.toNat + (n - 10))

/-- The number of a digit. -/
def hexValue (c : Char) : Option Nat :=
  if '0' ≤ c ∧ c ≤ '9' then some (c.toNat - '0'.toNat)
  else if 'a' ≤ c ∧ c ≤ 'f' then some (c.toNat - 'a'.toNat + 10)
  else if 'A' ≤ c ∧ c ≤ 'F' then some (c.toNat - 'A'.toNat + 10)
  else none

/-- A digit that was written is read. -/
theorem hexValue_hexDigit {n : Nat} (h : n < 16) : hexValue (hexDigit n) = some n := by
  have hall : ∀ m, m < 16 → hexValue (hexDigit m) = some m := by decide
  exact hall n h

/-- In upper case too. -/
theorem hexValue_toUpper {n : Nat} (h : n < 16) : hexValue (hexDigit n).toUpper = some n := by
  have hall : ∀ m, m < 16 → hexValue (hexDigit m).toUpper = some m := by decide
  exact hall n h

end ReleaseRadar.Lib
