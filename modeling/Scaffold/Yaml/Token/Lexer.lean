import Scaffold.Yaml.Token.Label
import Scaffold.Yaml.Token.Scalar

/-!
# `Scaffold.Yaml.Token.Lexer` — taking a text apart into tokens

A key of a mapping shows as one only when the colon after it has been read. So every place where a
key may begin is kept until its line ends; when the colon comes, the tokens for the key are put in
front of what has been read since.

## Contents
- **State.** `Pending`, `State`.
- **Keys.** `State.savePending`, `State.dropPending`, `State.dropStale`.
- **Indentation.** `State.unwind`, `State.indentTo`.
- **Tokens.** `State.step`, `tokens`.
-/

namespace Scaffold.Yaml.Lexer

/-! ## State -/

/-- A place where a key may have begun: the number of tokens before it, and whether a key has to
    be there. -/
structure Pending where
  number : Nat
  required : Bool
  index : Nat
  line : Nat
  column : Nat

/-- The lexer between two tokens. The tokens read so far come newest first; `indents` are the
    columns of the open block collections, innermost first. A key may be pending for every level of
    flow collections. -/
structure State where
  cursor : Cursor
  tokens : List Token
  count : Nat
  flow : Nat
  indents : List Nat
  keyAllowed : Bool
  pending : List (Nat × Pending)

namespace State

/-- The state at the front of a text. -/
def start (cs : List Char) : State := ⟨.start cs, [], 0, 0, [], true, []⟩

/-- The column of the innermost block collection, `-1` outside of all. -/
def indent (s : State) : Int :=
  match s.indents with
  | [] => -1
  | n :: _ => n

/-- With one more token. -/
def push (s : State) (t : Token) : State := { s with tokens := t :: s.tokens, count := s.count + 1 }

/-- With a token put after the first `number` ones. -/
def insert (s : State) (number : Nat) (t : Token) : State :=
  let (newer, older) := s.tokens.splitAt (s.count - number)
  { s with tokens := newer ++ t :: older, count := s.count + 1 }

/-! ## Keys -/

/-- A pending key that cannot become one: its line has ended, or it is too long. -/
def isStale (s : State) (p : Pending) : Bool :=
  p.line != s.cursor.line || 1024 < s.cursor.index - p.index

/-- Drops the stale keys; one that is required is a fault. -/
def dropStale (s : State) : Except Failure State :=
  if s.pending.any fun (_, p) => s.isStale p && p.required then .error .malformed
  else .ok { s with pending := s.pending.filter fun (_, p) => !s.isStale p }

/-- Drops the pending key of this level; one that is required is a fault. -/
def dropPending (s : State) : Except Failure State :=
  if s.pending.any fun (l, p) => l = s.flow && p.required then .error .malformed
  else .ok { s with pending := s.pending.filter fun (l, _) => l ≠ s.flow }

/-- Remembers that a key may begin here. It is required at the column of the collection. -/
def savePending (s : State) : Except Failure State :=
  if s.keyAllowed then
    let c := s.cursor
    let required := s.flow = 0 ∧ s.indent = c.column
    s.dropPending.map fun s =>
      { s with pending := (s.flow, ⟨s.count, required, c.index, c.line, c.column⟩) :: s.pending }
  else .ok s

/-! ## Indentation -/

/-- The open block collections that a line at `column` leaves open, and how many it closes. -/
def closedBy (column : Int) : List Nat → Nat × List Nat
  | [] => (0, [])
  | n :: r =>
    if column < n then
      let (k, left) := closedBy column r
      (k + 1, left)
    else (0, n :: r)

/-- Closes the block collections to the right of `column`. In flow collections nothing happens. -/
def unwind (s : State) (column : Int) : State :=
  if s.flow ≠ 0 then s
  else
    let (k, left) := closedBy column s.indents
    { s with
      indents := left
      tokens := List.replicate k .blockEnd ++ s.tokens
      count := s.count + k }

/-- Opens a block collection at `column`, its token `t` put after the first `number` ones, unless
    one at this column is open. -/
def openAt (s : State) (column number : Nat) (t : Token) : State :=
  if s.indent < column then { s.insert number t with indents := column :: s.indents } else s

/-! ## Tokens -/

/-- Past blanks, comments and line breaks; `fuel` bounds the lines. In block collections a key may
    begin after a break. -/
def skipBlank : (fuel : Nat) → State → State
  | 0, s => s
  | n + 1, s =>
    let c := s.cursor.skipSpaces.skipComment
    if isBreak c.peek then
      skipBlank n { s with cursor := c.takeBreak.2, keyAllowed := s.keyAllowed || s.flow = 0 }
    else { s with cursor := c }

/-- After a byte order mark at the very front. -/
def skipMark (s : State) : State :=
  if s.cursor.index = 0 ∧ s.cursor.peek = '\ufeff' then { s with cursor := s.cursor.next } else s

/-- A token of `size` characters. -/
def take (s : State) (size : Nat) (t : Token) : State :=
  { s.push t with cursor := s.cursor.skip size }

/-- Three hyphens or points between documents. -/
def documentMark (s : State) (t : Token) : Except Failure State :=
  (s.unwind (-1)).dropPending.map fun s => { s.take 3 t with keyAllowed := false }

/-- A percent sign at the front of a line. -/
def directive (s : State) : Except Failure State := do
  let s ← (s.unwind (-1)).dropPending
  let (t, c) ← Label.readDirective s.cursor
  return { s.push t with cursor := c, keyAllowed := false }

/-- An opening bracket. -/
def openFlow (s : State) (t : Token) : Except Failure State :=
  s.savePending.map fun s => { s.take 1 t with flow := s.flow + 1, keyAllowed := true }

/-- A closing bracket. -/
def closeFlow (s : State) (t : Token) : Except Failure State :=
  s.dropPending.bind fun s =>
    match s.flow with
    | 0 => .error .malformed
    | n + 1 => .ok { s.take 1 t with flow := n, keyAllowed := false }

/-- A comma in a flow collection. -/
def flowEntry (s : State) : Except Failure State :=
  s.dropPending.map fun s => { s.take 1 .flowEntry with keyAllowed := true }

/-- A hyphen before an item. -/
def blockEntry (s : State) : Except Failure State :=
  if s.flow = 0 && !s.keyAllowed then .error .malformed
  else
    let s := if s.flow = 0 then s.openAt s.cursor.column s.count .blockSequenceStart else s
    s.dropPending.map fun s => { s.take 1 .blockEntry with keyAllowed := true }

/-- A question mark before a key. -/
def explicitKey (s : State) : Except Failure State :=
  if s.flow = 0 && !s.keyAllowed then .error .malformed
  else
    let s := if s.flow = 0 then s.openAt s.cursor.column s.count .blockMappingStart else s
    s.dropPending.map fun s => { s.take 1 .key with keyAllowed := s.flow = 0 }

/-- A colon: it makes the pending key of this level one, or follows an explicit one. -/
def mappingValue (s : State) : Except Failure State :=
  match s.pending.find? fun (l, _) => l = s.flow with
  | some (_, p) =>
    let s := { s with pending := s.pending.filter fun (l, _) => l ≠ s.flow }
    let s := s.insert p.number .key
    let s := if s.flow = 0 then s.openAt p.column p.number .blockMappingStart else s
    .ok { s.take 1 .value with keyAllowed := false }
  | none =>
    if s.flow = 0 && !s.keyAllowed then .error .malformed
    else
      let s := if s.flow = 0 then s.openAt s.cursor.column s.count .blockMappingStart else s
      .ok { s.take 1 .value with keyAllowed := s.flow = 0 }

/-- A token read at the cursor, where a key may begin. -/
def readAt (s : State) (read : Cursor → Except Failure (Token × Cursor)) : Except Failure State := do
  let s ← s.savePending
  let (t, c) ← read s.cursor
  return { s.push t with cursor := c, keyAllowed := false }

/-- A quoted scalar. -/
def quoted (s : State) : Except Failure State :=
  s.readAt fun c => (Scalar.readQuoted c).map fun (cs, c) => (.scalar (String.ofList cs) false, c)

/-- A plain scalar. A key may begin after it if its line has ended. -/
def plain (s : State) : Except Failure State :=
  s.savePending.map fun s =>
    let (cs, ended, c) :=
      Scalar.readPlain (s.flow ≠ 0) (s.indent + 1) (s.cursor.rest.length + 1) s.cursor
    { s.push (.scalar (String.ofList cs) true) with cursor := c, keyAllowed := ended }

/-- A block scalar. -/
def block (s : State) (fold : Bool) : Except Failure State := do
  let s ← s.dropPending
  let (cs, c) ← Scalar.readBlock fold s.indent s.cursor
  return { s.push (.scalar (String.ofList cs) false) with cursor := c, keyAllowed := true }

/-- A plain scalar may begin at the cursor. -/
def beginsPlain (s : State) : Bool :=
  let ch := s.cursor.peek
  !(endsWord ch || "-?:,[]\x7b\x7d#&*!|>\x27\x22%@\x60".contains ch) ||
    (!endsWord (s.cursor.peekAt 1) && (ch = '-' || (s.flow = 0 && (ch = '?' || ch = ':'))))

/-- The end of the text; none if it is not reached. -/
def finish? (s : State) : Option (Except Failure State) :=
  if s.cursor.peek = '\x00' then some ((s.unwind (-1)).dropPending.map (·.push .streamEnd)) else none

/-- Reads the token at the cursor, blanks having been skipped. -/
def readToken (s : State) : Except Failure State :=
  let c := s.cursor
  let ch := c.peek
  let word := endsWord (c.peekAt 1)
  if ch = '%' ∧ c.column = 0 then s.directive
  else if c.column = 0 && c.atDocumentMark then
    s.documentMark (if ch = '-' then .documentStart else .documentEnd)
  else if ch = '[' then s.openFlow .flowSequenceStart
  else if ch = '\x7b' then s.openFlow .flowMappingStart
  else if ch = ']' then s.closeFlow .flowSequenceEnd
  else if ch = '\x7d' then s.closeFlow .flowMappingEnd
  else if ch = ',' then s.flowEntry
  else if ch = '-' && word then s.blockEntry
  else if ch = '?' && (s.flow ≠ 0 || word) then s.explicitKey
  else if ch = ':' && (s.flow ≠ 0 || word) then s.mappingValue
  else if ch = '*' then s.readAt fun c => (Label.readName c).map fun (n, c) => (.reference n, c)
  else if ch = '&' then s.readAt fun c => (Label.readName c).map fun (n, c) => (.anchor n, c)
  else if ch = '!' then s.readAt Label.readTag
  else if ch = '|' && s.flow = 0 then s.block false
  else if ch = '>' && s.flow = 0 then s.block true
  else if ch = '\x27' || ch = '\x22' then s.quoted
  else if s.beginsPlain then s.plain
  else .error .malformed

/-- Reads one token with the block ends before it. -/
def step (s : State) : Except Failure State := do
  let s := s.skipMark
  let s ← (skipBlank (s.cursor.rest.length + 1) s).dropStale
  let s := s.unwind s.cursor.column
  match s.finish? with
  | some done => done
  | none => s.readToken

/-- The tokens that no pending key can still come before, in order. -/
def settled (s : State) : List Token :=
  let alive := s.pending.filter fun (_, p) => !s.isStale p
  let least := alive.foldl (fun n (_, p) => min n p.number) s.count
  (s.tokens.drop (s.count - least)).reverse

end State

/-- Reads tokens up to the end of the text, or up to a fault, which then is the last token. -/
def run : (fuel : Nat) → State → List Token
  | 0, s => (s.settled).concat (.fault .malformed)
  | n + 1, s =>
    match s.step with
    | .error f => s.settled.concat (.fault f)
    | .ok s =>
      match s.tokens with
      | .streamEnd :: _ => s.tokens.reverse
      | _ => run n s

/-- The tokens of a text. -/
def tokens (cs : List Char) : List Token := run (cs.length + 2) (.start cs)

end Scaffold.Yaml.Lexer
