import Scaffold.Json.Writer
import Scaffold.Text.Printable

/-!
# `Scaffold.Value.Display` — how messages show values

Messages quote the values they speak of. A text stands in single quotes, or in double quotes if it
holds single ones only; what cannot be printed is escaped.

A collection that holds itself is shown once; where it stands again, three points stand for it. An
integer with too many digits cannot be shown, nor what stands too deep inside collections.

## Contents
- **Texts.** `quoted`.
- **Lists of names.** `quotedList`.
- **Values.** `Value.shown`, `Value.display`.
- **Limits.** `Value.unshowable?`: why a value cannot be shown.
-/

namespace Scaffold

open Decimal (intText shortestText)

/-- The digits of a number in base 16, at least `width`. -/
def hexPadded (width n : Nat) : String :=
  let ds := Nat.toDigits 16 n
  String.ofList (List.replicate (width - ds.length) '0' ++ ds)

/-- A character as it stands between quotes of the kind `mark`. -/
def escapeChar (mark : Char) (c : Char) : String :=
  if c = mark ∨ c = '\\' then String.ofList ['\\', c]
  else if c = '\n' then "\\n"
  else if c = '\r' then "\\r"
  else if c = '\t' then "\\t"
  else if Text.isPrintable c then String.singleton c
  else if c.toNat < 0x100 then "\\x" ++ hexPadded 2 c.toNat
  else if c.toNat < 0x10000 then "\\u" ++ hexPadded 4 c.toNat
  else "\\U" ++ hexPadded 8 c.toNat

/-- The quote that a text is shown in. -/
def quoteFor (s : List Char) : Char :=
  if s.contains '\x27' && !s.contains '\x22' then '\x22' else '\x27'

/-- A text in quotes. -/
def quoted (s : String) : String :=
  let mark := quoteFor s.toList
  String.singleton mark ++ Text.concat (s.toList.map (escapeChar mark)) ++ String.singleton mark

/-- A byte as it stands between quotes of the kind `mark`. -/
def escapeByte (mark : Char) (b : UInt8) : String :=
  let c := Char.ofNat b.toNat
  if c = mark ∨ c = '\\' then String.ofList ['\\', c]
  else if c = '\n' then "\\n"
  else if c = '\r' then "\\r"
  else if c = '\t' then "\\t"
  else if 0x20 ≤ b.toNat ∧ b.toNat < 0x7f then String.singleton c
  else "\\x" ++ hexPadded 2 b.toNat

/-- Names in quotes between brackets. -/
def quotedList (names : List String) : String :=
  "[" ++ Text.joinWith ", " (names.map quoted) ++ "]"

namespace Value

/-- What stands for a collection inside itself. -/
def ellipsis (isMap : Bool) : String := if isMap then "\x7b...\x7d" else "[...]"

mutual

/-- The value as a message quotes it, inside the collections under the labels `around`. -/
def shownIn (around : List Nat) : Value → String
  | .null => "None"
  | .bool b => if b then "True" else "False"
  | .int n => intText n
  | .float x => shortestText x
  | .text s => quoted s
  | .bytes bs =>
    let mark := quoteFor (bs.map fun b => Char.ofNat b.toNat)
    "b" ++ String.singleton mark ++ Text.concat (bs.map (escapeByte mark)) ++ String.singleton mark
  | .date d => d.shown
  | .moment m => m.shown
  | .list xs => "[" ++ shownItems around xs ++ "]"
  | .set xs => if xs.isEmpty then "set()" else "\x7b" ++ shownItems around xs ++ "\x7d"
  | .map es => "\x7b" ++ shownEntries around es ++ "\x7d"
  | .pair a b => "(" ++ shownIn around a ++ ", " ++ shownIn around b ++ ")"
  | .knot l v => if around.contains l then ellipsis (v.kind = "dict") else shownIn (l :: around) v
  | .again _ isMap => ellipsis isMap

/-- The items with commas between them. -/
def shownItems (around : List Nat) : List Value → String
  | [] => ""
  | [x] => shownIn around x
  | x :: y :: r => shownIn around x ++ ", " ++ shownItems around (y :: r)

/-- The entries with commas between them. -/
def shownEntries (around : List Nat) : List (Value × Value) → String
  | [] => ""
  | [(k, v)] => shownIn around k ++ ": " ++ shownIn around v
  | (k, v) :: e :: r =>
    shownIn around k ++ ": " ++ shownIn around v ++ ", " ++ shownEntries around (e :: r)

end

/-- The value as a message quotes it. -/
def shown (v : Value) : String := shownIn [] v

/-- The value as running text: texts and dates without quotes. -/
def display : Value → String
  | .text s => s
  | .date d => d.text
  | .moment m => m.textWith " "
  | v => v.shown

/-! ## Limits -/

/-- How many values may be open at a time in a value that is shown: as many calls as the interpreter
    has left where it is complained of a style. -/
def showLimit : Nat := 985

/-- What is said of a value that stands too deep to be shown. -/
def tooDeepToShow : Json.Unwritable := .tooDeep "getting the repr of an object"

mutual

/-- What first keeps a value from being shown where `room` values may be open at a time, inside the
    collections under the labels `around`. -/
def unshowableIn (around : List Nat) : (room : Nat) → Value → Option Json.Unwritable
  | 0, _ => some tooDeepToShow
  | _ + 1, .int n => if Decimal.isLong n then some .longInteger else none
  | room + 1, .list xs => unshowableItem around room xs
  -- a set is shown as the list of its items, which is one value more
  | room + 1, .set xs =>
    if xs.isEmpty then none
    else if room = 0 then some tooDeepToShow
    else unshowableItem around (room - 1) xs
  | room + 1, .map es => unshowableEntry around room es
  | room + 1, .pair a b => (unshowableIn around room a).or (unshowableIn around room b)
  | room + 1, .knot l v =>
    if around.contains l then none else unshowableIn (l :: around) (room + 1) v
  | _ + 1, _ => none

/-- What first keeps an item from being shown. -/
def unshowableItem (around : List Nat) (room : Nat) : List Value → Option Json.Unwritable
  | [] => none
  | x :: xs => (unshowableIn around room x).or (unshowableItem around room xs)

/-- What first keeps a key or a value of the entries from being shown. -/
def unshowableEntry (around : List Nat) (room : Nat) :
    List (Value × Value) → Option Json.Unwritable
  | [] => none
  | (k, v) :: es =>
    (unshowableIn around room k).or
      ((unshowableIn around room v).or (unshowableEntry around room es))

end

/-- Why a value cannot be shown, if it cannot. -/
def unshowable? (v : Value) : Option Json.Unwritable := unshowableIn [] showLimit v

end Value

end Scaffold
