/-!
# Hexadecimal digits

Digits are read in either case and written in lower case.
-/

set_option autoImplicit false

namespace DeployCheck.Text

def hexDigit? (c : Char) : Option Nat :=
  let n := c.toNat
  if 48 ≤ n ∧ n ≤ 57 then some (n - 48)
  else if 97 ≤ n ∧ n ≤ 102 then some (n - 87)
  else if 65 ≤ n ∧ n ≤ 70 then some (n - 55)
  else none

def hexNumber? (digits : List Char) : Option Nat :=
  digits.foldlM (fun n c => (hexDigit? c).map (16 * n + ·)) 0

def hexText (n : Nat) : String := String.ofList (Nat.toDigits 16 n)

end DeployCheck.Text
