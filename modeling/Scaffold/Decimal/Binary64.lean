/-!
# `Scaffold.Decimal.Binary64` — binary floating point of 64 bits as exact numbers

A number is a sign, a mantissa `m` and an exponent `q`, and stands for `m · 2^q`. All operations
compute the exact result in natural numbers first and round it once, half to even.

## Contents
- **Numbers.** `Binary64`, `zero`, `negate`, `isZero`.
- **Rounding.** `ofRatio`: the nearest number to a quotient.
- **Decimals.** `ofDecimal`: the nearest number to `n · 10^e`.
- **Arithmetic.** `add`, `mul`, `ofInt`, `isPositive`, `numEq`.
-/

namespace Scaffold.Decimal

/-- A binary floating point number of 64 bits. In a finite one the mantissa is below `2^53` and
    the exponent at least `-1074`. -/
inductive Binary64
  | finite (negative : Bool) (mantissa : Nat) (exponent : Int)
  | infinite (negative : Bool)
  | nan
  deriving DecidableEq, Repr

namespace Binary64

/-- Zero of either sign. -/
def zero (negative : Bool) : Binary64 := .finite negative 0 (-1074)

/-- The number with the other sign. -/
def negate : Binary64 → Binary64
  | .finite s m q => .finite (!s) m q
  | .infinite s => .infinite (!s)
  | .nan => .nan

/-- Either zero. -/
def isZero : Binary64 → Bool
  | .finite _ m _ => m == 0
  | _ => false

/-! ## Rounding -/

/-- The quotient rounded to the nearest natural number, a half to the even one. -/
def roundDiv (num den : Nat) : Nat :=
  let q := num / den
  let r := num % den
  if 2 * r < den then q
  else if 2 * r = den then (if q % 2 = 0 then q else q + 1)
  else q + 1

/-- Numerator and denominator of `num / den · 2^k`. -/
def scale (num den : Nat) (k : Int) : Nat × Nat :=
  if 0 ≤ k then (num * Nat.pow 2 k.toNat, den) else (num, den * Nat.pow 2 (-k).toNat)

/-- The number nearest to `num / den`. -/
def ofRatio (negative : Bool) (num den : Nat) : Binary64 :=
  if num = 0 then zero negative
  else
    let e : Int := (Nat.log2 num : Int) - (Nat.log2 den : Int)
    -- the quotient is at least `2^e`, or at least `2^(e-1)`
    let (n₀, d₀) := scale num den (-e)
    let q : Int := max (if d₀ ≤ n₀ then e - 52 else e - 53) (-1074)
    let (n, d) := scale num den (-q)
    let m := roundDiv n d
    let (m, q) := if m = Nat.pow 2 53 then (Nat.pow 2 52, q + 1) else (m, q)
    if 971 < q then .infinite negative else .finite negative m q

/-- The number nearest to `digits · 10^exponent`. Exponents far outside the range are decided
    without computing the power. -/
def ofDecimal (negative : Bool) (digits : Nat) (exponent : Int) : Binary64 :=
  if digits = 0 then zero negative
  else
    let size : Int := (Nat.log2 digits : Int) / 3 + 1
    if 400 < exponent then .infinite negative
    else if exponent + size < -400 then zero negative
    else if 0 ≤ exponent then ofRatio negative (digits * Nat.pow 10 exponent.toNat) 1
    else ofRatio negative digits (Nat.pow 10 (-exponent).toNat)

/-- The number nearest to an integer. -/
def ofInt (n : Int) : Binary64 := ofRatio (decide (n < 0)) n.natAbs 1

/-! ## Arithmetic -/

/-- A finite number as an integer times a power of two. -/
def signed (negative : Bool) (m : Nat) : Int := if negative then -(m : Int) else (m : Int)

/-- The exact dyadic number `n · 2^q`, rounded. An exact zero takes the sign given for it. -/
def ofDyadic (zeroSign : Bool) (n q : Int) : Binary64 :=
  if n = 0 then zero zeroSign
  else
    let (num, den) := scale n.natAbs 1 q
    ofRatio (decide (n < 0)) num den

/-- The rounded sum. -/
def add : Binary64 → Binary64 → Binary64
  | .nan, _ => .nan
  | _, .nan => .nan
  | .infinite s, .infinite t => if s = t then .infinite s else .nan
  | .infinite s, _ => .infinite s
  | _, .infinite t => .infinite t
  | .finite s m q, .finite t n r =>
    let k := min q r
    let a := signed s m * (Nat.pow 2 (q - k).toNat : Nat)
    let b := signed t n * (Nat.pow 2 (r - k).toNat : Nat)
    ofDyadic (s && t) (a + b) k

/-- The rounded product. -/
def mul : Binary64 → Binary64 → Binary64
  | .nan, _ => .nan
  | _, .nan => .nan
  | .infinite s, y => if y.isZero then .nan else
      match y with
      | .finite t _ _ => .infinite (s != t)
      | .infinite t => .infinite (s != t)
      | .nan => .nan
  | .finite s m _, .infinite t => if m = 0 then .nan else .infinite (s != t)
  | .finite s m q, .finite t n r => ofDyadic (s != t) (signed (s != t) (m * n)) (q + r)

/-- The numeric value as a quotient, for a finite number. -/
def ratio? : Binary64 → Option (Int × Nat)
  | .finite s m q =>
    let (n, d) := scale m 1 q
    some (signed s n, d)
  | _ => none

/-- The value as an integer, if it is one. -/
def toInt? (x : Binary64) : Option Int :=
  match x.ratio? with
  | some (n, d) => if n % d = 0 then some (n / d) else none
  | none => none

/-- Strictly below zero, a zero of either sign not counted. -/
def isNegative : Binary64 → Bool
  | .finite s m _ => s && m != 0
  | .infinite s => s
  | .nan => false

/-- Strictly above zero; false for a number that is not one. -/
def isPositive : Binary64 → Bool
  | .finite s m _ => !s && m != 0
  | .infinite s => !s
  | .nan => false

/-- Equality of numbers: the two zeros are equal, `nan` equals nothing. -/
def numEq : Binary64 → Binary64 → Bool
  | .finite s m q, .finite t n r => if m = 0 ∧ n = 0 then true else s = t ∧ m = n ∧ q = r
  | .infinite s, .infinite t => s = t
  | _, _ => false

end Binary64

end Scaffold.Decimal
