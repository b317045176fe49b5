/-!
# `Decimal.Power`: powers of two and ten, and the bound of a word
-/

namespace ControlCodegen.Decimal

set_option autoImplicit false

def twoPow (k : Nat) : Nat := Nat.pow 2 k

def tenPow (k : Nat) : Nat := Nat.pow 10 k

/-- Below this bound lie the whole numbers of 64 bits without a sign. -/
def wordBound : Nat := 18446744073709551616

theorem twoPow_pos (k : Nat) : 0 < twoPow k := Nat.pow_pos (by decide)

theorem tenPow_pos (k : Nat) : 0 < tenPow k := Nat.pow_pos (by decide)

end ControlCodegen.Decimal
