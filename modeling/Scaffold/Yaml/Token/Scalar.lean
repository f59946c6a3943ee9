import Scaffold.Yaml.Cursor
import Scaffold.Yaml.Token

/-!
# `Scaffold.Yaml.Token.Scalar` — the texts of scalars

A scalar is written in quotes, plain, or as a block of lines. Line breaks inside quoted and plain
scalars are folded: one break is a space, of more breaks all but the first stay.

## Contents
- **Folding.** `folded`.
- **Quoted.** `readQuoted`.
- **Plain.** `readPlain`.
- **Blocks.** `readBlock`, with `Chomping`.
-/

namespace Scaffold.Yaml.Scalar

open Text (hexValue?)

/-- The text that a line break with further `breaks` after it folds to. -/
def folded (first breaks : List Char) : List Char :=
  if first ≠ ['\n'] then first ++ breaks
  else if breaks.isEmpty then [' '] else breaks

/-! ## Quoted scalars -/

/-- The breaks of the following blank lines. A document mark at the front of a line is a fault. -/
def readBlankLines : (fuel : Nat) → Cursor → Except Failure (List Char × Cursor)
  | 0, _ => .error .malformed
  | n + 1, c =>
    if c.atDocumentMark then .error .malformed
    else
      let c := c.skipWhile fun ch => ch = ' ' || ch = '\t'
      if isBreak c.peek then
        let (b, c) := c.takeBreak
        (readBlankLines n c).map fun (bs, c) => (b ++ bs, c)
      else .ok ([], c)

/-- The character that one letter after a backslash stands for. -/
def simpleEscape? (ch : Char) : Option Char :=
  match ch with
  | '0' => some '\x00'
  | 'a' => some '\x07'
  | 'b' => some '\x08'
  | 't' => some '\t'
  | '\t' => some '\t'
  | 'n' => some '\n'
  | 'v' => some '\x0b'
  | 'f' => some '\x0c'
  | 'r' => some '\r'
  | 'e' => some '\x1b'
  | ' ' => some ' '
  | '\x22' => some '\x22'
  | '\\' => some '\\'
  | '/' => some '/'
  | 'N' => some '\x85'
  | '_' => some '\u00a0'
  | 'L' => some '\u2028'
  | 'P' => some '\u2029'
  | _ => none

/-- How many digits follow a letter that announces a character by number. -/
def escapeWidth? (ch : Char) : Option Nat :=
  if ch = 'x' then some 2 else if ch = 'u' then some 4 else if ch = 'U' then some 8 else none

/-- The number that `width` digits of base 16 at the front spell. -/
def readHex? (width : Nat) (cs : List Char) : Option Nat :=
  let ds := cs.take width
  if ds.length < width then none
  else ds.foldl (fun acc ch =>
    match acc, hexValue? ch with
    | some n, some d => some (n * 16 + d)
    | _, _ => none) (some 0)

/-- An escape; the cursor stands after the backslash. -/
def readEscape (c : Cursor) : Except Failure (List Char × Cursor) :=
  match simpleEscape? c.peek with
  | some ch => .ok ([ch], c.next)
  | none =>
    match escapeWidth? c.peek with
    | some width =>
      match readHex? width c.next.rest with
      | none => .error .malformed
      | some n =>
        if 0x10ffff < n then .error (.codePoint n)
        else if 0xd800 ≤ n ∧ n < 0xe000 then .error .loneHalf
        else .ok ([Char.ofNat n], c.next.skip width)
    | none =>
      if isBreak c.peek then
        let c := c.takeBreak.2
        readBlankLines (c.rest.length + 1) c
      else .error .malformed

/-- Blanks inside a quoted scalar: kept on a line, folded at its end. -/
def readBlanks (c : Cursor) : Except Failure (List Char × Cursor) :=
  let (blanks, c) := c.takeWhile fun ch => ch = ' ' || ch = '\t'
  if c.peek = '\x00' then .error .malformed
  else if isBreak c.peek then
    let (first, c) := c.takeBreak
    (readBlankLines (c.rest.length + 1) c).map fun (breaks, c) => (folded first breaks, c)
  else .ok (blanks, c)

/-- The text up to the closing quote; the cursor stands after the opening one. -/
def readUntilQuote (quote : Char) : (fuel : Nat) → Cursor → Except Failure (List Char × Cursor)
  | 0, _ => .error .malformed
  | n + 1, c =>
    let ch := c.peek
    let more (part : List Char) (c : Cursor) :=
      (readUntilQuote quote n c).map fun (cs, c) => (part ++ cs, c)
    if ch = quote then
      if quote = '\x27' ∧ c.peekAt 1 = quote then more [quote] (c.skip 2) else .ok ([], c.next)
    else if ch = '\\' ∧ quote = '\x22' then
      match readEscape c.next with
      | .error f => .error f
      | .ok (part, c) => more part c
    else if endsWord ch then
      match readBlanks c with
      | .error f => .error f
      | .ok (part, c) => more part c
    else more [ch] c.next

/-- A quoted scalar; the cursor stands at the opening quote. -/
def readQuoted (c : Cursor) : Except Failure (List Char × Cursor) :=
  readUntilQuote c.peek (c.rest.length + 1) c.next

/-! ## Plain scalars -/

/-- How many characters a plain scalar takes at the front: up to a blank, or a colon before one; in
    a flow collection also up to its indicators. -/
def plainLength (flow : Bool) : List Char → Nat
  | [] => 0
  | ch :: r =>
    let after := r.headD '\x00'
    if endsWord ch || (ch = ':' && (endsWord after || (flow && ",[]\x7b\x7d".contains after))) ||
        (flow && ",?[]\x7b\x7d".contains ch) then 0
    else plainLength flow r + 1

/-- The breaks of blank lines, up to text or a document mark. The flag tells of a mark. -/
def skipBlankLines : (fuel : Nat) → Cursor → List Char × Bool × Cursor
  | 0, c => ([], false, c)
  | n + 1, c =>
    let c := c.skipSpaces
    if isBreak c.peek then
      let (b, c) := c.takeBreak
      if c.atDocumentMark then (b, true, c)
      else
        let (bs, mark, c) := skipBlankLines n c
        (b ++ bs, mark, c)
    else ([], false, c)

/-- What lies between two parts of a plain scalar: its text, none if the scalar ends here, and
    whether a line ended. -/
def readGap (c : Cursor) : Option (List Char) × Bool × Cursor :=
  let (spaces, c) := c.takeWhile (· = ' ')
  if isBreak c.peek then
    let (first, c) := c.takeBreak
    if c.atDocumentMark then (none, true, c)
    else
      let (breaks, mark, c) := skipBlankLines (c.rest.length + 1) c
      (if mark then none else some (folded first breaks), true, c)
  else (if spaces.isEmpty then none else some spaces, false, c)

/-- A plain scalar, and whether a line ended right after it. Lines that go on with it are indented
    to `indent` at least, unless it stands in a flow collection. -/
def readPlain (flow : Bool) (indent : Int) : (fuel : Nat) → Cursor → List Char × Bool × Cursor
  | 0, c => ([], false, c)
  | n + 1, c =>
    let size := plainLength flow c.rest
    let part := c.rest.take size
    let c := c.skip size
    match readGap c with
    | (none, ended, c) => (part, ended, c)
    | (some gap, ended, c) =>
      if c.peek = '#' || (!flow && (c.column : Int) < indent) || plainLength flow c.rest = 0 then
        (part, ended, c)
      else
        let (cs, ended, c) := readPlain flow indent n c
        (part ++ gap ++ cs, ended, c)

/-! ## Block scalars -/

/-- What becomes of the breaks at the end of a block. -/
inductive Chomping
  | clip
  | strip
  | keep
  deriving DecidableEq, Repr

/-- The chomping that a sign stands for. -/
def Chomping.ofChar? (ch : Char) : Option Chomping :=
  if ch = '+' then some .keep else if ch = '-' then some .strip else none

/-- A digit for the indentation: none if there is no digit; a zero is a fault. -/
def readIncrement (c : Cursor) : Except Failure (Option Nat × Cursor) :=
  if Text.isDigit c.peek then
    if c.peek = '0' then .error .malformed
    else .ok (some (Text.digitValue c.peek), c.next)
  else .ok (none, c)

/-- The sign and the digit after the indicator of a block, in either order. -/
def readHeader (c : Cursor) : Except Failure (Chomping × Option Nat × Cursor) :=
  match Chomping.ofChar? c.peek with
  | some k =>
    match readIncrement c.next with
    | .error f => .error f
    | .ok (i, c) => .ok (k, i, c)
  | none =>
    match readIncrement c with
    | .error f => .error f
    | .ok (none, c) => .ok (.clip, none, c)
    | .ok (some i, c) =>
      match Chomping.ofChar? c.peek with
      | some k => .ok (k, some i, c.next)
      | none => .ok (.clip, some i, c)

/-- Blank lines before the first line with text: their breaks, and the widest column reached. -/
def readLeading : (fuel width : Nat) → Cursor → List Char × Nat × Cursor
  | 0, width, c => ([], width, c)
  | n + 1, width, c =>
    if c.peek = ' ' then
      let c := c.next
      readLeading n (max width c.column) c
    else if isBreak c.peek then
      let (b, c) := c.takeBreak
      let (bs, width, c) := readLeading n width c
      (b ++ bs, width, c)
    else ([], width, c)

/-- Spaces up to a column. -/
def skipIndent (indent : Nat) : (fuel : Nat) → Cursor → Cursor
  | 0, c => c
  | n + 1, c => if c.column < indent ∧ c.peek = ' ' then skipIndent indent n c.next else c

/-- The breaks of blank lines, and the cursor at the indentation of the line after them. -/
def readBetween (indent : Nat) : (fuel : Nat) → Cursor → List Char × Cursor
  | 0, c => ([], c)
  | n + 1, c =>
    let c := skipIndent indent indent c
    if isBreak c.peek then
      let (b, c) := c.takeBreak
      let (bs, c) := readBetween indent n c
      (b ++ bs, c)
    else ([], c)

/-- The lines of a block, `breaks` being what came before. The parts are the text, the last break
    and the breaks after it. -/
def readLines (fold : Bool) (indent : Nat) :
    (fuel : Nat) → (last breaks : List Char) → Cursor → List Char × List Char × List Char × Cursor
  | 0, last, breaks, c => ([], last, breaks, c)
  | n + 1, last, breaks, c =>
    if c.column = indent ∧ c.peek ≠ '\x00' then
      let indented := c.peek = ' ' || c.peek = '\t'
      let (line, c) := c.takeWhile fun ch => !isBreak ch
      let (last, c) := c.takeBreak
      let (after, c) := readBetween indent (c.rest.length + 1) c
      let glue :=
        if c.column = indent ∧ c.peek ≠ '\x00' then
          if fold && last = ['\n'] && !indented && !(c.peek = ' ' || c.peek = '\t') then
            if after.isEmpty then [' '] else []
          else last
        else []
      let (cs, last, after, c) := readLines fold indent n last after c
      (breaks ++ line ++ glue ++ cs, last, after, c)
    else ([], last, breaks, c)

/-- A block scalar; the cursor stands at its indicator. `parent` is the indentation of the
    collection around it. -/
def readBlock (fold : Bool) (parent : Int) (c : Cursor) : Except Failure (List Char × Cursor) :=
  match readHeader c.next with
  | .error f => .error f
  | .ok (chomping, increment, c) =>
    if !endsLabel c.peek then .error .malformed
    else match c.finishLine? with
      | none => .error .malformed
      | some c =>
        let least := (max (parent + 1) 1).toNat
        let fuel := c.rest.length + 1
        let (breaks, indent, c) := match increment with
          | some i =>
            let indent := least + i - 1
            let (breaks, c) := readBetween indent fuel c
            (breaks, indent, c)
          | none =>
            let (breaks, width, c) := readLeading fuel 0 c
            (breaks, max least width, c)
        let (cs, last, after, c) := readLines fold indent fuel [] breaks c
        .ok (match chomping with
          | .clip => (cs ++ last, c)
          | .strip => (cs, c)
          | .keep => (cs ++ last ++ after, c))

end Scaffold.Yaml.Scalar
