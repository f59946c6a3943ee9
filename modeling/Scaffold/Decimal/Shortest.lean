import Scaffold.Decimal.Binary64
import Scaffold.Text.Basic

/-!
# `Scaffold.Decimal.Shortest` — decimal texts of binary numbers

The shortest text of a number has the fewest digits that read back as the same number, and of
those the nearest. Fixed texts round the exact value to a given number of places.

## Contents
- **Digits.** `shortest`: digits `d` and exponent `k` with `d · 10^k` in the rounding interval.
- **Layout.** `Layout`, `Layout.standard`, `shortestText`.
- **Fixed places.** `fixedText`.
- **Significant digits.** `generalText`.
- **Integers.** `grouped`: thousands separated by commas.
-/

namespace Scaffold.Decimal

open Scaffold.Text

/-! ## Digits of a natural number -/

/-- The decimal digits of a number. -/
def digitsOf (n : Nat) : String := String.ofList (Nat.toDigits 10 n)

/-- How many decimal digits a number has. -/
def digitCount (n : Nat) : Nat := (Nat.toDigits 10 n).length

/-- An integer in decimal. -/
def intText (n : Int) : String :=
  if n < 0 then "-" ++ digitsOf n.natAbs else digitsOf n.natAbs

/-- Divides by ten while that is exact, at most `fuel` times, and counts. -/
def dropZeros : (fuel n : Nat) → Nat × Nat
  | 0, n => (n, 0)
  | k + 1, n =>
    if n % 10 = 0 ∧ n ≠ 0 then
      let (m, c) := dropZeros k (n / 10)
      (m, c + 1)
    else (n, 0)

/-! ## The rounding interval -/

/-- The reals that round to a given number, all over one denominator. -/
structure Interval where
  low : Nat
  value : Nat
  high : Nat
  den : Nat
  closed : Bool

/-- The interval of `m · 2^q`. Below a power of two the numbers lie twice as dense. -/
def Interval.of (m : Nat) (q : Int) : Interval :=
  let below := if m = Nat.pow 2 52 ∧ -1074 < q then 1 else 2
  let (f, d) := Binary64.scale 1 1 (q - 2)
  ⟨(4 * m - below) * f, 4 * m * f, (4 * m + 2) * f, d, m % 2 == 0⟩

/-- `n · 10^k` lies in the interval. -/
def Interval.holds (i : Interval) (n : Nat) (k : Int) : Bool :=
  let (a, b) := if 0 ≤ k then (n * Nat.pow 10 k.toNat, 1) else (n, Nat.pow 10 (-k).toNat)
  if i.closed then i.low * b ≤ a * i.den && a * i.den ≤ i.high * b
  else i.low * b < a * i.den && a * i.den < i.high * b

/-- How many times `num` has to be multiplied by ten, less one, to reach `den`. -/
def leadingZeros (den : Nat) : (fuel num count : Nat) → Nat
  | 0, _, count => count
  | k + 1, num, count =>
    if den ≤ num * 10 then count else leadingZeros den k (num * 10) (count + 1)

/-- The number of digits before the point: the least `p` with `num / den < 10^p`. -/
def pointOf (num den : Nat) : Int :=
  if den ≤ num then (digitCount (num / den) : Int) else -(leadingZeros den 400 num 0 : Int)

/-- The quotient `num · 10^k / den` cut to a natural number, with its remainder and divisor. -/
def gridDiv (num den : Nat) (k : Int) : Nat × Nat × Nat :=
  let (n, d) := if 0 ≤ k then (num * Nat.pow 10 k.toNat, den) else (num, den * Nat.pow 10 (-k).toNat)
  (n / d, n % d, d)

/-- Tries the grids of `n`, `n + 1`, … digits; on each, the two neighbours of the value. -/
def search (i : Interval) (point : Int) : (fuel n : Nat) → Nat × Int
  | 0, _ => (i.value, 0)
  | fuel + 1, n =>
    let k := point - n
    let (f, r, d) := gridDiv i.value i.den (-k)
    match i.holds f k, i.holds (f + 1) k with
    | true, false => (f, k)
    | false, true => (f + 1, k)
    | true, true =>
      if 2 * r < d then (f, k)
      else if 2 * r = d then (if f % 2 = 0 then (f, k) else (f + 1, k))
      else (f + 1, k)
    | false, false => search i point fuel (n + 1)

/-- The fewest digits that read back as `m · 2^q`, without zeros at the end, and their power of
    ten. -/
def shortest (m : Nat) (q : Int) : Nat × Int :=
  let i := Interval.of m q
  let (d, k) := search i (pointOf i.value i.den) 17 1
  let (d, c) := dropZeros 20 d
  (d, k + c)

/-! ## Layout -/

/-- How digits are laid out: between which places of the point positional notation is used, and
    the least width of an exponent. -/
structure Layout where
  leastPoint : Int
  greatestPoint : Int
  exponentWidth : Nat

/-- Positional from `1e-4` up to, not including, `1e16`; exponents have a sign and two digits. -/
def Layout.standard : Layout := ⟨-3, 16, 2⟩

/-- A sign and at least two digits. -/
def exponentText (width : Nat) (e : Int) : String :=
  let ds := digitsOf e.natAbs
  (if e < 0 then "-" else "+") ++ String.ofList (List.replicate (width - ds.length) '0') ++ ds

/-- The digits with a point after `point` of them, filled with zeros where needed. -/
def positional (digits : String) (point : Int) : String × String :=
  let ds := digits.toList
  if point ≤ 0 then
    ("0", String.ofList (List.replicate (-point).toNat '0' ++ ds))
  else
    let p := point.toNat
    (String.ofList (ds.take p ++ List.replicate (p - ds.length) '0'), String.ofList (ds.drop p))

/-- The digits in the given layout. A positional text always shows a fraction. -/
def Layout.text (l : Layout) (digits : Nat) (k : Int) : String :=
  let ds := digitsOf digits
  let point : Int := ds.length + k
  if l.leastPoint ≤ point ∧ point ≤ l.greatestPoint then
    let (whole, frac) := positional ds point
    whole ++ "." ++ (if frac = "" then "0" else frac)
  else
    let first := String.ofList (ds.toList.take 1)
    let more := String.ofList (ds.toList.drop 1)
    first ++ (if more = "" then "" else "." ++ more) ++ "e" ++ exponentText l.exponentWidth (point - 1)

/-- The shortest text that reads back as the number. -/
def shortestText : Binary64 → String
  | .nan => "nan"
  | .infinite s => if s then "-inf" else "inf"
  | .finite s m q =>
    (if s then "-" else "") ++
      if m = 0 then "0.0"
      else
        let (d, k) := shortest m q
        Layout.standard.text d k

/-! ## Fixed places -/

/-- The exact value rounded half to even to `places` digits after the point. -/
def fixedText (places : Nat) : Binary64 → String
  | .nan => "nan"
  | .infinite s => if s then "-inf" else "inf"
  | .finite s m q =>
    let (n, d) := Binary64.scale m 1 q
    let r := Binary64.roundDiv (n * Nat.pow 10 places) d
    let ds := digitsOf r
    let ds := String.ofList (List.replicate (places + 1 - ds.length) '0') ++ ds
    let cut := ds.length - places
    (if s then "-" else "") ++ String.ofList (ds.toList.take cut) ++
      (if places = 0 then "" else "." ++ String.ofList (ds.toList.drop cut))

/-- Six significant digits, zeros at the end dropped; positional from `1e-4` up to, not including,
    `1e6`. -/
def generalText : Binary64 → String
  | .nan => "nan"
  | .infinite s => if s then "-inf" else "inf"
  | .finite s m q =>
    (if s then "-" else "") ++
      if m = 0 then "0"
      else
        let (n, d) := Binary64.scale m 1 q
        let point := pointOf n d
        let (f, r, e) := gridDiv n d (6 - point)
        let v := if 2 * r < e then f else if 2 * r = e ∧ f % 2 = 0 then f else f + 1
        let (v, point) := if v = 1000000 then (100000, point + 1) else (v, point)
        let (v, c) := dropZeros 6 v
        let ds := digitsOf v
        let k : Int := point - 6 + c
        let place : Int := ds.length + k
        if -3 ≤ place ∧ place ≤ 6 then
          let (whole, frac) := positional ds place
          if frac = "" then whole else whole ++ "." ++ frac
        else
          let first := String.ofList (ds.toList.take 1)
          let more := String.ofList (ds.toList.drop 1)
          first ++ (if more = "" then "" else "." ++ more) ++ "e" ++ exponentText 2 (place - 1)

/-! ## Integers -/

/-- Groups of three digits from the right, commas between them. -/
def groupDigits : (fuel : Nat) → List Char → List Char
  | 0, ds => ds
  | k + 1, ds =>
    if ds.length ≤ 3 then ds
    else groupDigits k (ds.take (ds.length - 3)) ++ ',' :: ds.drop (ds.length - 3)

/-- A natural number with its thousands separated by commas. -/
def grouped (n : Nat) : String :=
  let ds := Nat.toDigits 10 n
  String.ofList (groupDigits ds.length ds)

end Scaffold.Decimal
