import Scaffold.Value

/-!
# `Scaffold.Json.Writer` — writing JSON

Dates, moments, bytes and sets cannot be written, nor keys that are no text, number, truth value or
nothing; nor can integers with too many digits, collections that hold themselves, and collections that
stand too deep inside each other. Infinities and the number that is none are written by name.

## Contents
- **Styles.** `Style`: the separators, and whether only ASCII is written.
- **Faults.** `Unwritable`.
- **Texts.** `escaped`, `writeString`.
- **Values.** `writeLimit`, `inside`, `write`.
-/

namespace Scaffold.Json

open Decimal

/-- The separators between items and after keys, and whether other characters than those of ASCII
    are escaped. -/
structure Style where
  comma : String
  colon : String
  ascii : Bool

/-- A blank after every separator, ASCII only. -/
def Style.spaced : Style := ⟨", ", ": ", true⟩

/-- No blanks, all characters as they are. -/
def Style.compact : Style := ⟨",", ":", false⟩

/-! ## Faults -/

/-- What cannot be written, as JSON or in a message. -/
inductive Unwritable
  /-- A value of a kind that JSON has no form for. -/
  | value (kind : String)
  /-- A key of a kind that cannot be turned into a text. -/
  | key (kind : String)
  /-- An integer with too many digits. -/
  | longInteger
  /-- A collection that holds itself. -/
  | circular
  /-- Too many collections stand inside each other, and `task` is what cannot go on. -/
  | tooDeep (task : String)
  deriving DecidableEq, Repr

namespace Unwritable

/-- It is a value that is wrong, not its kind and not the way that collections stand in it. Readers of
    fields expect such values. -/
def isWrongValue : Unwritable → Bool
  | .longInteger => true
  | .circular => true
  | _ => false

/-- What messages call it. -/
def label : Unwritable → String
  | .value _ => "TypeError"
  | .key _ => "TypeError"
  | .tooDeep _ => "RecursionError"
  | _ => "ValueError"

/-- The words for what cannot be written. -/
def message : Unwritable → String
  | .value kind => s!"Object of type {kind} is not JSON serializable"
  | .key kind => s!"keys must be str, int, float, bool or None, not {kind}"
  | .longInteger => longMessage none
  | .circular => "Circular reference detected"
  | .tooDeep task => "maximum recursion depth exceeded while " ++ task

end Unwritable

/-! ## Texts -/

/-- Four digits of base 16. -/
def hex4 (n : Nat) : List Char :=
  let ds := Nat.toDigits 16 n
  List.replicate (4 - ds.length) '0' ++ ds

/-- A character as it stands in a written text. -/
def escaped (ascii : Bool) (c : Char) : List Char :=
  if c = '\x22' then ['\\', '\x22']
  else if c = '\\' then ['\\', '\\']
  else if c = '\n' then ['\\', 'n']
  else if c = '\r' then ['\\', 'r']
  else if c = '\t' then ['\\', 't']
  else if c = '\x08' then ['\\', 'b']
  else if c = '\x0c' then ['\\', 'f']
  else if c.toNat < 0x20 then '\\' :: 'u' :: hex4 c.toNat
  else if ascii && 0x7f ≤ c.toNat then
    if c.toNat < 0x10000 then '\\' :: 'u' :: hex4 c.toNat
    else
      let n := c.toNat - 0x10000
      '\\' :: 'u' :: hex4 (0xd800 + n / 0x400) ++ '\\' :: 'u' :: hex4 (0xdc00 + n % 0x400)
  else [c]

/-- A text in double quotes. -/
def writeString (ascii : Bool) (s : String) : List Char :=
  '\x22' :: s.toList.flatMap (escaped ascii) ++ ['\x22']

/-! ## Values -/

/-- A floating point number. -/
def floatText : Binary64 → String
  | .nan => "NaN"
  | .infinite s => if s then "-Infinity" else "Infinity"
  | x => shortestText x

/-- An integer, if it has not too many digits. -/
def integerText (n : Int) : Except Unwritable String :=
  if isLong n then .error .longInteger else .ok (intText n)

/-- A key as the text that is written for it. -/
def keyText : Value → Except Unwritable String
  | .text s => .ok s
  | .null => .ok "null"
  | .bool b => .ok (if b then "true" else "false")
  | .int n => integerText n
  | .float x => .ok (floatText x)
  | v => .error (.key v.fullKind)

/-- How many collections may stand inside each other in a value that is written: as many calls as the
    interpreter has left where the options of a decorator are written. -/
def writeLimit : Nat := 979

/-- Goes on inside a collection, where one collection less can be opened. -/
def inside {α : Type} (room : Nat) (go : Nat → Except Unwritable α) : Except Unwritable α :=
  match room with
  | 0 => .error (.tooDeep "encoding a JSON object")
  | room + 1 => go room

mutual

/-- The value in the given style, in which `room` collections may stand inside each other. -/
def writeChars (st : Style) (room : Nat) : Value → Except Unwritable (List Char)
  | .null => .ok "null".toList
  | .bool b => .ok (if b then "true".toList else "false".toList)
  | .int n => (integerText n).map String.toList
  | .float x => .ok (floatText x).toList
  | .text s => .ok (writeString st.ascii s)
  | .list xs => inside room fun room => (writeItems st room xs).map fun cs => '[' :: cs ++ [']']
  | .map es =>
    inside room fun room => (writeEntries st room es).map fun cs => '\x7b' :: cs ++ ['\x7d']
  | .pair a b => inside room fun room => do
    let x ← writeChars st room a
    let y ← writeChars st room b
    return '[' :: x ++ st.comma.toList ++ y ++ [']']
  | .knot _ v => writeChars st room v
  | .again _ _ => inside room fun _ => .error .circular
  | v => .error (.value v.kind)

/-- The items with separators between them. -/
def writeItems (st : Style) (room : Nat) : List Value → Except Unwritable (List Char)
  | [] => .ok []
  | [x] => writeChars st room x
  | x :: y :: r => do
    let a ← writeChars st room x
    let b ← writeItems st room (y :: r)
    return a ++ st.comma.toList ++ b

/-- The entries with separators between them. -/
def writeEntries (st : Style) (room : Nat) :
    List (Value × Value) → Except Unwritable (List Char)
  | [] => .ok []
  | [(k, v)] => do
    let key ← keyText k
    let a ← writeChars st room v
    return writeString st.ascii key ++ st.colon.toList ++ a
  | (k, v) :: e :: r => do
    let key ← keyText k
    let a ← writeChars st room v
    let b ← writeEntries st room (e :: r)
    return writeString st.ascii key ++ st.colon.toList ++ a ++ st.comma.toList ++ b

end

/-- The value as a text in the given style. -/
def write (st : Style) (v : Value) : Except Unwritable String :=
  (writeChars st writeLimit v).map String.ofList

end Scaffold.Json
