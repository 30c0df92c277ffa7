/-! Hexadecimal digits: written in lower case, read in either. -/
namespace Scorecard.Text

def hexDigit (n : Nat) : Char := Nat.digitChar n

def hexValue? (c : Char) : Option Nat :=
  if c.isDigit then some (c.toNat - '0'.toNat)
  else if 'a' ≤ c ∧ c ≤ 'f' then some (c.toNat - 'a'.toNat + 10)
  else if 'A' ≤ c ∧ c ≤ 'F' then some (c.toNat - 'A'.toNat + 10)
  else none

theorem hexValue?_hexDigit {n : Nat} (h : n < 16) : hexValue? (hexDigit n) = some n := by
  have : ∀ n < 16, hexValue? (hexDigit n) = some n := by decide
  exact this n h

/-- The last `count` hexadecimal digits of a number, most significant first. -/
def hexDigits (count n : Nat) : List Char :=
  (List.range count).map fun i => hexDigit (n >>> (4 * (count - 1 - i)) % 16)

end Scorecard.Text
