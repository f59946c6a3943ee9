import Scaffold.Yaml.Tag
import Scaffold.Yaml.Token
import Scaffold.Text.LetterCase

/-!
# `Scaffold.Yaml.Scalar` — the values of scalars

## Contents
- **Numbers.** `readInt`, `readFloat`: bases, underscores and numbers of base 60.
- **Bytes.** `readBytes?`: base 64, characters that do not belong to it left out.
- **All kinds.** `Tag.read`.
-/

namespace Scaffold.Yaml

open Decimal (Binary64)

/-! ## Numbers -/

/-- Without underscores. -/
def plainDigits (text : String) : List Char := text.toList.filter (· ≠ '_')

/-- Whether a minus stands at the front, and what follows the sign. None if there is nothing. -/
def takeSign? : List Char → Option (Bool × List Char)
  | [] => none
  | c :: r => some (if c = '-' then (true, r) else if c = '+' then (false, r) else (false, c :: r))

/-- An integer in a base. In base ten very long ones are refused, even if something else follows their
    digits. -/
def readBased (base : Nat) (cs : List Char) : Except Failure Int :=
  let size := (Decimal.leadingDigits cs).length
  if base = 10 ∧ Decimal.digitLimit < size then .error (.longInteger size)
  else
    match Decimal.readInt? base cs with
    | none => .error (.integer base (String.ofList cs))
    | some n => .ok n

/-- The value of parts of base 60. -/
def sixties (parts : List Int) : Int := parts.foldl (fun n part => n * 60 + part) 0

/-- An integer. Its first digits tell the base. -/
def readInt (text : String) : Except Failure Int :=
  match takeSign? (plainDigits text) with
  | none => .error .emptyNumber
  | some (negative, cs) =>
    let magnitude : Except Failure Int :=
      match cs with
      | [] => .error .emptyNumber
      | ['0'] => .ok 0
      | '0' :: 'b' :: r => readBased 2 r
      | '0' :: 'x' :: r => readBased 16 r
      | '0' :: _ => readBased 8 cs
      | _ =>
        if cs.contains ':' then ((Text.splitOn ':' cs).mapM (readBased 10)).map sixties
        else readBased 10 cs
    magnitude.map fun n => if negative then -n else n

/-- A floating point number in decimal. -/
def readDecimal (cs : List Char) : Except Failure Binary64 :=
  match Decimal.readAnyFloat? cs with
  | none => .error (.float (String.ofList cs))
  | some x => .ok x

/-- The sum of parts of base 60, the units first and `base` being what one of them counts. -/
def sixtiesFloat (sum : Binary64) (base : Int) : List Binary64 → Except Failure Binary64
  | [] => .ok sum
  | x :: r =>
    match Binary64.ofInt base with
    | .infinite _ => .error .tooLarge
    | factor => sixtiesFloat (sum.add (x.mul factor)) (base * 60) r

/-- A text stands for the number that is none by that name, not by the rules of numbers. -/
def isNamedNan (text : String) : Bool :=
  match takeSign? (Text.lower (String.ofList (plainDigits text))).toList with
  | some (_, cs) => cs = ".nan".toList
  | none => false

/-- A floating point number. -/
def readFloat (text : String) : Except Failure Binary64 :=
  match takeSign? (Text.lower (String.ofList (plainDigits text))).toList with
  | none => .error .emptyNumber
  | some (negative, cs) =>
    let sign (x : Binary64) := if negative then x.negate else x
    if cs = ".inf".toList then .ok (.infinite negative)
    else if cs = ".nan".toList then .ok .nan
    else if cs.contains ':' then
      do
        let parts ← (Text.splitOn ':' cs).mapM readDecimal
        return sign (← sixtiesFloat (.zero false) 1 parts.reverse)
    else (readDecimal cs).map sign

/-! ## Bytes -/

/-- The six bits that a character of base 64 stands for. -/
def sixBits? (c : Char) : Option Nat :=
  if Text.isUpper c then some (c.toNat - 0x41)
  else if Text.isLower c then some (c.toNat - 0x61 + 26)
  else if Text.isDigit c then some (c.toNat - 0x30 + 52)
  else if c = '+' then some 62
  else if c = '/' then some 63
  else none

/-- Reads on with `place` characters of a group of four seen, `bits` left from them and `pads`
    padding characters in a row. -/
def readGroups : (place bits pads : Nat) → List Char → Option (List UInt8)
  | place, _, _, [] => if place = 0 then some [] else none
  | place, bits, pads, c :: r =>
    if c = '=' then
      if 2 ≤ place then
        if 4 ≤ place + pads + 1 then some [] else readGroups place bits (pads + 1) r
      else readGroups place bits pads r
    else match sixBits? c with
      | none => readGroups place bits pads r
      | some v =>
        match place with
        | 0 => readGroups 1 v 0 r
        | 1 => (readGroups 2 (v % 16) 0 r).map (UInt8.ofNat (bits * 4 + v / 16) :: ·)
        | 2 => (readGroups 3 (v % 4) 0 r).map (UInt8.ofNat (bits * 16 + v / 4) :: ·)
        | _ => (readGroups 0 0 0 r).map (UInt8.ofNat (bits * 64 + v) :: ·)

/-- The bytes that a text of base 64 spells. Other characters of ASCII are left out. -/
def readBytes? (text : String) : Option (List UInt8) :=
  if text.toList.any fun c => 0x80 ≤ c.toNat then none else readGroups 0 0 0 text.toList

/-! ## All kinds -/

/-- The words for truth values, in lower case. -/
def truthValues : List (String × Bool) :=
  [("yes", true), ("no", false), ("true", true), ("false", false), ("on", true), ("off", false)]

/-- A truth value. -/
def readBool (text : String) : Except Failure Bool :=
  let name := Text.lower text
  match truthValues.lookup name with
  | some b => .ok b
  | none => .error (.truthValue name)

/-- A date or a moment. A line feed at the end does not count. -/
def readTime (text : String) : Except Failure Value :=
  let cs := text.toList
  let cs := if cs.getLast? = some '\n' then cs.dropLast else cs
  match Stamp.read? cs with
  | none => .error .notATime
  | some s =>
    match s.clock with
    | none =>
      match s.date.check with
      | some fault => .error (.outOfRange fault)
      | none => .ok (.date s.date)
    | some c => ((s.moment c).mapError .outOfRange).map .moment

/-- The value of a text under the tag of a scalar. -/
def Tag.read (tag : Tag) (text : String) : Except Failure Value :=
  match tag with
  | .null => .ok .null
  | .bool => (readBool text).map .bool
  | .int => (readInt text).map .int
  | .float => (readFloat text).map .float
  | .binary =>
    match readBytes? text with
    | some bs => .ok (.bytes bs)
    | none => .error .malformed
  | .timestamp => readTime text
  | .str => .ok (.text text)
  | _ => .error .malformed

end Scaffold.Yaml
