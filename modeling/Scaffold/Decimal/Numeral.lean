import Scaffold.Decimal.Binary64
import Scaffold.Text.Basic

/-!
# `Scaffold.Decimal.Numeral` — reading numbers from text

## Contents
- **Digits of any script.** `decimalZeros`, `asciiDigit`.
- **Integers.** `readNat?`, `readInt?`: digits in a base from 2 to 16; `leadingDigits`.
- **Floating point.** `readFloat?`: an optional sign, digits with a point, an exponent, or the
  names of infinity and of no number.
-/

namespace Scaffold.Decimal

open Scaffold.Text

/-! ## Digits of any script -/

/-- The places of the digit zero of every script; the other nine digits follow each. -/
def decimalZeros : List Nat :=
  [0x30, 0x660, 0x6f0, 0x7c0, 0x966, 0x9e6, 0xa66, 0xae6, 0xb66, 0xbe6, 0xc66, 0xce6, 0xd66, 0xde6,
   0xe50, 0xed0, 0xf20, 0x1040, 0x1090, 0x17e0, 0x1810, 0x1946, 0x19d0, 0x1a80, 0x1a90, 0x1b50,
   0x1bb0, 0x1c40, 0x1c50, 0xa620, 0xa8d0, 0xa900, 0xa9d0, 0xa9f0, 0xaa50, 0xabf0, 0xff10, 0x104a0,
   0x10d30, 0x11066, 0x110f0, 0x11136, 0x111d0, 0x112f0, 0x11450, 0x114d0, 0x11650, 0x116c0,
   0x11730, 0x118e0, 0x11950, 0x11c50, 0x11d50, 0x11da0, 0x16a60, 0x16ac0, 0x16b50, 0x1d7ce,
   0x1d7d8, 0x1d7e2, 0x1d7ec, 0x1d7f6, 0x1e140, 0x1e2f0, 0x1e950, 0x1fbf0]

/-- A decimal digit of any script as an ASCII digit; other characters stay. -/
def asciiDigit (c : Char) : Char :=
  match decimalZeros.find? fun z => z ≤ c.toNat && c.toNat ≤ z + 9 with
  | some z => Char.ofNat (0x30 + (c.toNat - z))
  | none => c

/-! ## Integers -/

/-- The number that ASCII digits spell. -/
def natOf (ds : List Char) : Nat := ds.foldl (fun n c => n * 10 + digitValue c) 0

/-- The number that digits spell in a base up to 16; none if there is no digit or a character is
    not a digit of the base. -/
def readNat? (base : Nat) (cs : List Char) : Option Nat :=
  if cs.isEmpty then none
  else cs.foldl (fun acc c =>
    match acc, hexValue? c with
    | some n, some d => if d < base then some (n * base + d) else none
    | _, _ => none) (some 0)

/-- Without the letter pair that announces the base, such as `0x`. -/
def dropBaseMark (base : Nat) (cs : List Char) : List Char :=
  match cs with
  | '0' :: m :: r =>
    if (base = 2 ∧ lowerChar m = 'b') ∨ (base = 8 ∧ lowerChar m = 'o') ∨
        (base = 16 ∧ lowerChar m = 'x') then r
    else cs
  | _ => cs

/-- A sign at the front, and what follows it. -/
def readSign : List Char → Bool × List Char
  | '-' :: r => (true, r)
  | '+' :: r => (false, r)
  | r => (false, r)

/-- The decimal digits at the front of a text, after blanks and a sign. -/
def leadingDigits (text : List Char) : List Char :=
  (readSign ((text.dropWhile isSpace).map asciiDigit)).2.takeWhile isDigit

/-- The integer that a text spells in a base, with blanks around it, a sign and the mark of the
    base if wanted. Digits may be of any script. -/
def readInt? (base : Nat) (text : List Char) : Option Int :=
  let (negative, cs) := readSign ((trimSpaces text).map asciiDigit)
  (readNat? base (dropBaseMark base cs)).map fun n => if negative then -(n : Int) else n

/-! ## Underscores -/

/-- Every underscore stands between two digits. -/
def underscoresFit : (before : Option Char) → List Char → Bool
  | _, [] => true
  | before, '_' :: r =>
    (match before with | some c => isDigit c | none => false) &&
    (match r with | d :: _ => isDigit d | [] => false) && underscoresFit (some '_') r
  | _, c :: r => underscoresFit (some c) r

/-- Without underscores; none if one does not stand between two digits. -/
def stripUnderscores? (cs : List Char) : Option (List Char) :=
  if underscoresFit none cs then some (cs.filter (· ≠ '_')) else none

/-! ## Floating point -/

/-- The exponent at the end of a numeral; none if it is malformed. -/
def readExponent? : List Char → Option Int
  | [] => some 0
  | c :: r =>
    if c = 'e' ∨ c = 'E' then
      let (neg, ds) := readSign r
      if ds.isEmpty || !ds.all isDigit then none
      else some (if neg then -(natOf ds : Int) else natOf ds)
    else none

/-- Digits, a point and digits, an exponent. -/
def readUnsigned? (negative : Bool) (cs : List Char) : Option Binary64 :=
  let whole := cs.takeWhile isDigit
  let rest := cs.dropWhile isDigit
  let (frac, rest) := match rest with
    | '.' :: r => (r.takeWhile isDigit, r.dropWhile isDigit)
    | r => ([], r)
  if whole.isEmpty && frac.isEmpty then none
  else (readExponent? rest).map fun e =>
    Binary64.ofDecimal negative (natOf (whole ++ frac)) (e - frac.length)

/-- The names that stand for infinity and for no number, in any letter case. -/
def readNamed? (negative : Bool) (cs : List Char) : Option Binary64 :=
  let name := String.ofList (cs.map lowerChar)
  if name = "inf" ∨ name = "infinity" then some (.infinite negative)
  else if name = "nan" then some .nan
  else none

/-- The number that a text without blanks and underscores spells. -/
def readBareFloat? (text : List Char) : Option Binary64 :=
  let (neg, cs) := readSign text
  match readNamed? neg cs with
  | some x => some x
  | none => readUnsigned? neg cs

/-- The number that a text spells, blanks at its ends and underscores between digits left out. -/
def readFloat? (text : List Char) : Option Binary64 :=
  (stripUnderscores? (trimSpaces text)).bind readBareFloat?

/-- `readFloat?` with the decimal digits of every script. -/
def readAnyFloat? (text : List Char) : Option Binary64 := readFloat? (text.map asciiDigit)

end Scaffold.Decimal
