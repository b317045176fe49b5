/-!
# `Text.Hex`: digits up to sixteen

`hexDigit?` : the value of a digit, in either case; `ofDigits base` : the number that digits denote in a base up to
sixteen.
-/

namespace ControlCodegen.Text

set_option autoImplicit false

def hexDigit? (c : Char) : Option Nat :=
  if '0' ≤ c ∧ c ≤ '9' then some (c.toNat - '0'.toNat)
  else if 'a' ≤ c ∧ c ≤ 'f' then some (c.toNat - 'a'.toNat + 10)
  else if 'A' ≤ c ∧ c ≤ 'F' then some (c.toNat - 'A'.toNat + 10)
  else none

/-- Whether a character is a digit below a base. -/
def isDigitOf (base : Nat) (c : Char) : Bool := (hexDigit? c).any (· < base)

def ofDigits (base : Nat) (cs : List Char) : Nat := cs.foldl (fun n c => base * n + (hexDigit? c).getD 0) 0

end ControlCodegen.Text
