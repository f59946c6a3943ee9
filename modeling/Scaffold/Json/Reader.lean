import Scaffold.Value
import Scaffold.Decimal.Numeral

/-!
# `Scaffold.Json.Reader` — reading JSON

The reader takes a text apart from the front. A failure keeps what was left of the text at the
place it names, so that the place can be given by line and column.

An escape can spell half of a surrogate pair, which is no character. The reader gives up at one: a text
that it gives holds characters only.

## Contents
- **Failures.** `Cause`, `Failure.message`.
- **Scalars.** `readString`, `readNumber?`.
- **Values.** `readValue`, `read`.
-/

namespace Scaffold.Json

open Text Decimal

/-! ## Failures -/

/-- What the reader did not find, or found and refuses. -/
inductive Cause
  | byteOrderMark
  | value
  | name
  | colon
  | comma
  | extraData
  | unterminated
  | controlCharacter
  | badEscape
  | badCodePoint
  | longInteger (digits : Nat)
  /-- Half of a surrogate pair stands alone. -/
  | loneHalf
  /-- Too many collections are open where one of this kind begins. -/
  | tooDeep (kind : String)
  deriving DecidableEq, Repr

/-- The words for a cause. -/
def Cause.text : Cause → String
  | .byteOrderMark => "Unexpected UTF-8 BOM (decode using utf-8-sig)"
  | .value => "Expecting value"
  | .name => "Expecting property name enclosed in double quotes"
  | .colon => "Expecting ':' delimiter"
  | .comma => "Expecting ',' delimiter"
  | .extraData => "Extra data"
  | .unterminated => "Unterminated string starting at"
  | .controlCharacter => "Invalid control character at"
  | .badEscape => "Invalid \\escape"
  | .badCodePoint => "Invalid \\uXXXX escape"
  | .longInteger n => Decimal.longMessage (some n)
  | .loneHalf => "surrogates not allowed"
  | .tooDeep kind =>
    s!"maximum recursion depth exceeded while decoding a JSON {kind} from a unicode string"

/-- A failure with what was left of the text where it happened. -/
structure Failure where
  cause : Cause
  rest : List Char

/-- A failure as a reader of the text is told of it: its place is counted from the front. -/
structure Report where
  cause : Cause
  line : Nat
  column : Nat
  position : Nat
  deriving DecidableEq, Repr

/-- The place of a failure in the whole text. -/
def Failure.locate (f : Failure) (whole : List Char) : Report :=
  let position := whole.length - f.rest.length
  let before := whole.take position
  let line := before.count '\n' + 1
  let column := (before.reverse.takeWhile (· ≠ '\n')).length + 1
  ⟨f.cause, line, column, position⟩

/-- The message with line, column and place. -/
def Report.message (r : Report) : String :=
  s!"{r.cause.text}: line {digitsOf r.line} column {digitsOf r.column} (char {digitsOf r.position})"

/-- The result of a step of the reader: a value and what is left of the text. -/
abbrev Step (α : Type) := Except Failure (α × List Char)

/-! ## Scalars -/

/-- The white space that may stand between tokens. -/
def isSpace (c : Char) : Bool := c = ' ' || c = '\t' || c = '\n' || c = '\r'

/-- The text after the white space at its front. -/
def skipSpace (cs : List Char) : List Char := cs.dropWhile isSpace

/-- The number of four digits in base 16 at the front. -/
def readHex4? : List Char → Option (Nat × List Char)
  | a :: b :: c :: d :: r =>
    match hexValue? a, hexValue? b, hexValue? c, hexValue? d with
    | some w, some x, some y, some z => some (((w * 16 + x) * 16 + y) * 16 + z, r)
    | _, _, _, _ => none
  | _ => none

/-- The character that a single letter after a backslash stands for. -/
def simpleEscape? (c : Char) : Option Char :=
  if c = '\x22' ∨ c = '\\' ∨ c = '/' then some c
  else if c = 'b' then some '\x08'
  else if c = 'f' then some '\x0c'
  else if c = 'n' then some '\n'
  else if c = 'r' then some '\r'
  else if c = 't' then some '\t'
  else none

/-- The low half of a surrogate pair at the front, written as an escape. A malformed escape after
    a high half is a failure as soon as the text is long enough to hold one. -/
def readLowHalf (rest : List Char) : Except Failure (Option (Nat × List Char)) :=
  match rest with
  | '\\' :: 'u' :: r =>
    if (r.drop 4).isEmpty then .ok none
    else match readHex4? r with
      | none => .error ⟨.badCodePoint, 'u' :: r⟩
      | some (n, r) => if 0xdc00 ≤ n ∧ n < 0xe000 then .ok (some (n, r)) else .ok none
  | _ => .ok none

/-- The characters up to the closing quote. `opening` is the text from the opening quote on. -/
def readString (opening : List Char) : (fuel : Nat) → List Char → Step (List Char)
  | 0, _ => .error ⟨.unterminated, opening⟩
  | _ + 1, [] => .error ⟨.unterminated, opening⟩
  | n + 1, c :: r =>
    if c = '\x22' then .ok ([], r)
    else if c = '\\' then
      match r with
      | [] => .error ⟨.unterminated, opening⟩
      | 'u' :: h =>
        if (h.drop 4).isEmpty then .error ⟨.badCodePoint, 'u' :: h⟩
        else match readHex4? h with
          | none => .error ⟨.badCodePoint, 'u' :: h⟩
          | some (hi, h) =>
            if 0xd800 ≤ hi ∧ hi < 0xdc00 then
              match readLowHalf h with
              | .error f => .error f
              | .ok (some (lo, h)) =>
                (readString opening n h).map fun (cs, r) =>
                  (Char.ofNat (0x10000 + (hi - 0xd800) * 0x400 + (lo - 0xdc00)) :: cs, r)
              | .ok none => .error ⟨.loneHalf, c :: r⟩
            else if 0xdc00 ≤ hi ∧ hi < 0xe000 then .error ⟨.loneHalf, c :: r⟩
            else (readString opening n h).map fun (cs, r) => (Char.ofNat hi :: cs, r)
      | e :: r' =>
        match simpleEscape? e with
        | none => .error ⟨.badEscape, c :: r⟩
        | some ch => (readString opening n r').map fun (cs, r) => (ch :: cs, r)
    else if c.toNat < 0x20 then .error ⟨.controlCharacter, c :: r⟩
    else (readString opening n r).map fun (cs, r) => (c :: cs, r)

/-- The digits of the whole part: a zero alone, or digits that begin with another one. -/
def readWhole? : List Char → Option (List Char × List Char)
  | '0' :: r => some (['0'], r)
  | c :: r => if isDigit c then some (c :: r.takeWhile isDigit, r.dropWhile isDigit) else none
  | [] => none

/-- A point and the digits after it, if there are any. -/
def readFraction : List Char → Option (List Char) × List Char
  | '.' :: d :: r =>
    if isDigit d then (some (d :: r.takeWhile isDigit), r.dropWhile isDigit)
    else (none, '.' :: d :: r)
  | r => (none, r)

/-- An exponent, if one with digits is there. -/
def readPower : List Char → Option Int × List Char
  | c :: r =>
    if c = 'e' ∨ c = 'E' then
      let (neg, ds) := readSign r
      let digits := ds.takeWhile isDigit
      if digits.isEmpty then (none, c :: r)
      else (some (if neg then -(natOf digits : Int) else natOf digits), ds.dropWhile isDigit)
    else (none, c :: r)
  | [] => (none, [])

/-- A number at the front; an integer if it has neither fraction nor exponent. -/
def readNumber? (cs : List Char) : Option (Value × List Char) :=
  let (neg, ds) := match cs with
    | '-' :: r => (true, r)
    | r => (false, r)
  match readWhole? ds with
  | none => none
  | some (whole, r) =>
    let (frac, r) := readFraction r
    let (power, r) := readPower r
    match frac, power with
    | none, none =>
      let n : Int := natOf whole
      some (.int (if neg then -n else n), r)
    | _, _ =>
      let fs := frac.getD []
      some (.float (Binary64.ofDecimal neg (natOf (whole ++ fs)) (power.getD 0 - fs.length)), r)

/-- The words that stand for values. -/
def constants : List (String × Value) :=
  [("null", .null), ("true", .bool true), ("false", .bool false), ("NaN", .float .nan),
   ("Infinity", .float (.infinite false)), ("-Infinity", .float (.infinite true))]

/-- A word at the front that stands for a value. -/
def readConstant? (cs : List Char) : Option (Value × List Char) :=
  constants.findSome? fun (w, v) => (dropPat? w.toList cs).map fun r => (v, r)

/-! ## Values -/

/-- How many collections may be open at a time. -/
def depthLimit : Nat := 980

mutual

/-- The value at the front of a text without white space before it. `room` collections more may be
    open at a time. -/
def readValue : (fuel room : Nat) → List Char → Step Value
  | 0, _, cs => .error ⟨.value, cs⟩
  | n + 1, room, cs =>
    match cs, room with
    | '\x22' :: r, _ => (readString cs cs.length r).map fun (s, r) => (.text (String.ofList s), r)
    | '\x7b' :: _, 0 => .error ⟨.tooDeep "object", cs⟩
    | '\x7b' :: r, room + 1 =>
      match skipSpace r with
      | '\x7d' :: r => .ok (.map [], r)
      | r => (readEntries n room r).map fun (es, r) => (.map (Entries.ofList es), r)
    | '[' :: _, 0 => .error ⟨.tooDeep "array", cs⟩
    | '[' :: r, room + 1 =>
      match skipSpace r with
      | ']' :: r => .ok (.list [], r)
      | r => (readItems n room r).map fun (xs, r) => (.list xs, r)
    | _, _ =>
      match readConstant? cs with
      | some out => .ok out
      | none =>
        match readNumber? cs with
        | some (.int k, r) =>
          let size := digitCount k.natAbs
          if Decimal.digitLimit < size then .error ⟨.longInteger size, cs⟩ else .ok (.int k, r)
        | some out => .ok out
        | none => .error ⟨.value, cs⟩

/-- The items of a list up to its closing bracket. -/
def readItems : (fuel room : Nat) → List Char → Step (List Value)
  | 0, _, cs => .error ⟨.value, cs⟩
  | n + 1, room, cs =>
    match readValue n room cs with
    | .error f => .error f
    | .ok (x, r) =>
      match skipSpace r with
      | ']' :: r => .ok ([x], r)
      | ',' :: r => (readItems n room (skipSpace r)).map fun (xs, r) => (x :: xs, r)
      | r => .error ⟨.comma, r⟩

/-- The entries of a mapping up to its closing brace. -/
def readEntries : (fuel room : Nat) → List Char → Step (List (Value × Value))
  | 0, _, cs => .error ⟨.name, cs⟩
  | n + 1, room, cs =>
    match cs with
    | '\x22' :: r =>
      match readString cs cs.length r with
      | .error f => .error f
      | .ok (key, r) =>
        match skipSpace r with
        | ':' :: r =>
          match readValue n room (skipSpace r) with
          | .error f => .error f
          | .ok (v, r) =>
            let entry := (Value.text (String.ofList key), v)
            match skipSpace r with
            | '\x7d' :: r => .ok ([entry], r)
            | ',' :: r => (readEntries n room (skipSpace r)).map fun (es, r) => (entry :: es, r)
            | r => .error ⟨.comma, r⟩
        | r => .error ⟨.colon, r⟩
    | _ => .error ⟨.name, cs⟩

end

/-- The value that a whole text spells. -/
def readText (cs : List Char) : Except Failure Value :=
  match cs with
  | '\ufeff' :: _ => .error ⟨.byteOrderMark, cs⟩
  | _ =>
    match readValue (2 * cs.length + 2) depthLimit (skipSpace cs) with
    | .error f => .error f
    | .ok (v, r) =>
      match skipSpace r with
      | [] => .ok v
      | r => .error ⟨.extraData, r⟩

/-- The value that a text spells, or the place and cause of its first failure. -/
def read (text : String) : Except Report Value :=
  let cs := text.toList
  (readText cs).mapError fun f => f.locate cs

end Scaffold.Json
