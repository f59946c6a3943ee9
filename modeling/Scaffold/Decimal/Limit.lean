import Scaffold.Decimal.Shortest

/-!
# `Scaffold.Decimal.Limit` — integers that are too long

Integers are read and written in decimal with a limited number of digits only, since the work grows
with the square of their number. Other bases have no limit.

## Contents
- **The limit.** `digitLimit`, `isLong`.
- **Words.** `longMessage`.
-/

namespace Scaffold.Decimal

/-- The most decimal digits that an integer is read or written with. -/
def digitLimit : Nat := 4300

/-- The integer has too many decimal digits to be written. -/
def isLong (n : Int) : Bool := Nat.pow 10 digitLimit ≤ n.natAbs

/-- The words for an integer that is too long, with the number of its digits if it was read. -/
def longMessage (digits : Option Nat) : String :=
  s!"Exceeds the limit ({digitsOf digitLimit} digits) for integer string conversion" ++
    (match digits with
     | some n => s!": value has {digitsOf n} digits"
     | none => "") ++
    "; use sys.set_int_max_str_digits() to increase the limit"

end Scaffold.Decimal
