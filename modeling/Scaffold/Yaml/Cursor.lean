import Scaffold.Text.Basic

/-!
# `Scaffold.Yaml.Cursor` — places in a YAML text

YAML is sensitive to lines and columns, so the reader carries them along. A text holds no NUL
character; the end of the text shows as one.

## Contents
- **Character classes.** `isBreak`, `isBreakOrEnd`, `endsWord`, `isReadable`.
- **Moving.** `Cursor.peek`, `Cursor.next`, `Cursor.skip`, `Cursor.takeWhile`.
- **Line breaks.** `Cursor.takeBreak`, `Cursor.atDocumentMark`.
-/

namespace Scaffold.Yaml

/-! ## Character classes -/

/-- Characters that a text may hold. -/
def isReadable (c : Char) : Bool :=
  let n := c.toNat
  n == 0x9 || n == 0xa || n == 0xd || (0x20 ≤ n && n ≤ 0x7e) || n == 0x85 ||
  (0xa0 ≤ n && n ≤ 0xd7ff) || (0xe000 ≤ n && n ≤ 0xfffd) || 0x10000 ≤ n

/-- Characters that end a line. -/
def isBreak (c : Char) : Bool :=
  c = '\n' || c = '\r' || c = '\x85' || c = '\u2028' || c = '\u2029'

/-- The end of a line or of the text. -/
def isBreakOrEnd (c : Char) : Bool := isBreak c || c = '\x00'

/-- What may follow an indicator: a blank, a break or the end. -/
def endsWord (c : Char) : Bool := isBreakOrEnd c || c = ' ' || c = '\t'

/-- `endsWord` without the tab. -/
def endsLabel (c : Char) : Bool := isBreakOrEnd c || c = ' '

/-- Letters of a name: of an anchor, a directive or a handle. -/
def isNameChar (c : Char) : Bool := Text.isAlnum c || c = '-' || c = '_'

/-! ## Cursors -/

/-- What is left of a text, with the place it begins at. -/
structure Cursor where
  rest : List Char
  index : Nat
  line : Nat
  column : Nat
  deriving Repr

namespace Cursor

/-- The front of a text. -/
def start (cs : List Char) : Cursor := ⟨cs, 0, 0, 0⟩

/-- The character `k` places ahead; NUL stands for the end. -/
def peekAt (c : Cursor) (k : Nat) : Char := (c.rest[k]?).getD '\x00'

/-- The next character. -/
def peek (c : Cursor) : Char := c.peekAt 0

/-- One character further. A carriage return before a line feed does not end the line, and a byte
    order mark takes no column. -/
def next (c : Cursor) : Cursor :=
  match c.rest with
  | [] => c
  | ch :: r =>
    if isBreak ch && !(ch = '\r' && r.head? = some '\n') then ⟨r, c.index + 1, c.line + 1, 0⟩
    else ⟨r, c.index + 1, c.line, if ch = '\ufeff' then c.column else c.column + 1⟩

/-- `n` characters further. -/
def skip : (n : Nat) → Cursor → Cursor
  | 0, c => c
  | n + 1, c => skip n c.next

/-- The characters that `p` accepts, and the cursor after them. -/
def takeWhile (p : Char → Bool) (c : Cursor) : List Char × Cursor :=
  let cs := c.rest.takeWhile p
  (cs, c.skip cs.length)

/-- After the characters that `p` accepts. -/
def skipWhile (p : Char → Bool) (c : Cursor) : Cursor := (c.takeWhile p).2

/-- After spaces. -/
def skipSpaces (c : Cursor) : Cursor := c.skipWhile (· = ' ')

/-- Past a comment, if one begins here. -/
def skipComment (c : Cursor) : Cursor :=
  if c.peek = '#' then c.skipWhile fun ch => !isBreak ch else c

/-- Reads one line break: the text it stands for, nothing if there is none. All breaks but the two
    separators of Unicode stand for a line feed. -/
def takeBreak (c : Cursor) : List Char × Cursor :=
  let ch := c.peek
  if ch = '\u2028' ∨ ch = '\u2029' then ([ch], c.next)
  else if isBreak ch then
    (['\n'], if ch = '\r' ∧ c.peekAt 1 = '\n' then c.skip 2 else c.next)
  else ([], c)

/-- Three hyphens or three points stand here as a word of their own. -/
def atDocumentMark (c : Cursor) : Bool :=
  (Text.startsWith "---".toList c.rest || Text.startsWith "...".toList c.rest) &&
    endsWord (c.peekAt 3)

/-- Nothing but spaces and a comment up to the end of the line; the cursor after the break. -/
def finishLine? (c : Cursor) : Option Cursor :=
  let c := c.skipSpaces.skipComment
  if isBreakOrEnd c.peek then some c.takeBreak.2 else none

end Cursor

end Scaffold.Yaml
