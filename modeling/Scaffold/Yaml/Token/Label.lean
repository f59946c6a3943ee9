import Scaffold.Yaml.Cursor
import Scaffold.Yaml.Token
import Scaffold.Text.Utf8
import Scaffold.Decimal.Numeral

/-!
# `Scaffold.Yaml.Token.Label` — anchors, references, tags and directives

## Contents
- **Anchors.** `readName`.
- **Tags.** `readHandle`, `readUri`, `readTag`.
- **Directives.** `readDirective`.
-/

namespace Scaffold.Yaml.Label

open Text (hexValue?)

/-- What may follow the name of an anchor. -/
def endsName (c : Char) : Bool := endsWord c || "?:,]\x7d%@\x60".contains c

/-- The name of an anchor or a reference; the cursor stands at its indicator. -/
def readName (c : Cursor) : Except Failure (String × Cursor) :=
  let (name, c) := c.next.takeWhile isNameChar
  if name.isEmpty || !endsName c.peek then .error .malformed
  else .ok (String.ofList name, c)

/-! ## Tags -/

/-- Characters of a tag, percent signs of escapes left out. -/
def isUriChar (c : Char) : Bool := Text.isAlnum c || "-;/?:@&=+$,_.!~*'()[]".contains c

/-- The bytes of a run of percent escapes at the front; none if one is malformed. -/
def readEscapedBytes? : (fuel : Nat) → Cursor → Option (List UInt8 × Cursor)
  | 0, _ => none
  | n + 1, c =>
    if c.peek = '%' then
      match hexValue? (c.peekAt 1), hexValue? (c.peekAt 2) with
      | some a, some b =>
        (readEscapedBytes? n (c.skip 3)).map fun (bs, c) => (UInt8.ofNat (a * 16 + b) :: bs, c)
      | _, _ => none
    else some ([], c)

/-- The characters of a tag, escapes replaced by what they stand for. -/
def readUriChars : (fuel : Nat) → Cursor → Except Failure (List Char × Cursor)
  | 0, _ => .error .malformed
  | n + 1, c =>
    if c.peek = '%' then
      match readEscapedBytes? (c.rest.length + 1) c with
      | none => .error .malformed
      | some (bytes, c) =>
        match Text.Utf8.decode bytes with
        | .error _ => .error .malformed
        | .ok part => (readUriChars n c).map fun (cs, c) => (part.toList ++ cs, c)
    else
      let (part, c) := c.takeWhile isUriChar
      if part.isEmpty then .ok ([], c)
      else (readUriChars n c).map fun (cs, c) => (part ++ cs, c)

/-- A tag without its handle; it is not empty. -/
def readUri (c : Cursor) : Except Failure (String × Cursor) :=
  match readUriChars (c.rest.length + 1) c with
  | .error f => .error f
  | .ok (cs, after) =>
    if after.index = c.index then .error .malformed else .ok (String.ofList cs, after)

/-- A handle: an exclamation mark alone, or two with a name between them. -/
def readHandle (c : Cursor) : Except Failure (String × Cursor) :=
  if c.peek ≠ '!' then .error .malformed
  else if c.peekAt 1 = ' ' then .ok ("!", c.next)
  else
    let (name, c) := c.next.takeWhile isNameChar
    if c.peek = '!' then .ok (String.ofList ('!' :: name ++ ['!']), c.next) else .error .malformed

/-- A second exclamation mark stands in the same word. -/
def hasHandle (c : Cursor) : Bool :=
  (c.next.rest.takeWhile fun ch => !endsLabel ch).contains '!'

/-- A tag; the cursor stands at its exclamation mark. -/
def readTag (c : Cursor) : Except Failure (Token × Cursor) := do
  let (token, c) ←
    if c.peekAt 1 = '<' then do
      let (uri, c) ← readUri (c.skip 2)
      if c.peek = '>' then pure (Token.tag none uri, c.next) else .error .malformed
    else if endsWord (c.peekAt 1) then pure (Token.tag none "!", c.next)
    else if hasHandle c then do
      let (handle, c) ← readHandle c
      let (uri, c) ← readUri c
      pure (Token.tag (some handle) uri, c)
    else do
      let (uri, c) ← readUri c.next
      pure (Token.tag (some "!") uri, c)
  if endsLabel c.peek then return (token, c) else .error .malformed

/-! ## Directives -/

/-- A number of a version. -/
def readVersionPart (c : Cursor) : Except Failure (Nat × Cursor) :=
  let (ds, c) := c.takeWhile Text.isDigit
  if ds.isEmpty then .error .malformed
  else if Decimal.digitLimit < ds.length then .error (.longInteger ds.length)
  else .ok (Decimal.natOf ds, c)

/-- The version that a directive gives. -/
def readVersion (c : Cursor) : Except Failure (Directive × Cursor) := do
  let (major, c) ← readVersionPart c.skipSpaces
  if c.peek ≠ '.' then .error .malformed
  else
    let (_, c) ← readVersionPart c.next
    if endsLabel c.peek then return (.version major, c) else .error .malformed

/-- The handle that a directive gives, with what it stands for. -/
def readHandleDirective (c : Cursor) : Except Failure (Directive × Cursor) := do
  let (handle, c) ← readHandle c.skipSpaces
  if c.peek ≠ ' ' then .error .malformed
  else
    let (uri, c) ← readUri c.skipSpaces
    if endsLabel c.peek then return (.handle handle uri, c) else .error .malformed

/-- A directive with its line; the cursor stands at the percent sign. -/
def readDirective (c : Cursor) : Except Failure (Token × Cursor) := do
  let (name, c) := c.next.takeWhile isNameChar
  if name.isEmpty || !endsLabel c.peek then .error .malformed
  else
    let (d, c) ←
      if name = "YAML".toList then readVersion c
      else if name = "TAG".toList then readHandleDirective c
      else pure (.unknown, c.skipWhile fun ch => !isBreak ch)
    match c.finishLine? with
    | none => .error .malformed
    | some c => return (.directive d, c)

end Scaffold.Yaml.Label
