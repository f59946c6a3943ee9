import Scaffold.Text.Utf8

/-!
# `Scaffold.Shell.Word` — the words of a shell script

A formatter can be given as a small shell script. Texts of the shell are strings of bytes, kept here
as characters below 256. A script is first taken apart into words and operators.

## Contents
- **Bytes.** `Str`, `Str.ofText`, `Str.bytes`, `Str.decoded`.
- **Words.** `Piece`, `Word`, `Token`.
- **Lexing.** `tokens`.
-/

namespace Scaffold.Shell

open Text (isDigit isUpper isLower)

/-! ## Bytes -/

/-- A string of bytes, each a character below 256. -/
abbrev Str := List Char

/-- The bytes of a text. -/
def Str.ofText (s : String) : Str := (Text.Utf8.encode s).map fun b => Char.ofNat b.toNat

/-- The bytes themselves. -/
def Str.bytes (s : Str) : List UInt8 := s.map fun c => UInt8.ofNat c.toNat

/-- The text that the bytes stand for. -/
def Str.decoded (s : Str) : String := Text.Utf8.decodeReplacing s.bytes

/-- A string of characters that are all below 128. -/
def Str.ofAscii (s : String) : Str := s.toList

/-! ## Words -/

/-- A part of a word. What is quoted is never split. -/
inductive Piece
  | plain (text : Str) (quoted : Bool)
  | parameter (name : Str) (quoted : Bool)
  /-- What a script prints. -/
  | output (script : Str) (quoted : Bool)
  deriving DecidableEq, Repr

/-- A word is the sequence of its parts. -/
abbrev Word := List Piece

/-- The part as if it were quoted. -/
def Piece.whole : Piece → Piece
  | .plain text _ => .plain text true
  | .parameter name _ => .parameter name true
  | .output script _ => .output script true

/-- Where a redirection leads. -/
inductive Direction
  /-- From a file. -/
  | input
  /-- To a file. -/
  | output
  /-- To where another channel leads. -/
  | same
  deriving DecidableEq, Repr

/-- A unit of a script. -/
inductive Token
  | word (w : Word)
  /-- Stands between commands. -/
  | operator (text : String)
  /-- Redirects a channel to what the next word names. -/
  | redirect (channel : Nat) (direction : Direction)
  deriving DecidableEq, Repr

/-- What is wrong with a script. -/
inductive ScriptFault
  | openQuote
  | openBrace
  /-- A unit stands where it cannot stand, perhaps in the place of another one. -/
  | unexpected (token : String) (wanted : Option String)
  | badLoopVariable
  deriving DecidableEq, Repr

/-- What messages call the end of a script. -/
def endOfFile : String := "end of file"

/-- The words for a fault. -/
def ScriptFault.message : ScriptFault → String
  | .openQuote => "Syntax error: Unterminated quoted string"
  | .openBrace => "Syntax error: Missing \x27\x7d\x27"
  | .unexpected token wanted =>
    let shown := if token = endOfFile then token else s!"\"{token}\""
    s!"Syntax error: {shown} unexpected" ++
      (match wanted with
       | some w => s!" (expecting \"{w}\")"
       | none => "")
  | .badLoopVariable => "Syntax error: Bad for loop variable"

/-! ## Lexing -/

/-- A character that a name can begin with. -/
def isNameStart (c : Char) : Bool := isUpper c || isLower c || c = '_'

/-- A character that can stand in a name. -/
def isNameChar (c : Char) : Bool := isNameStart c || isDigit c

/-- A parameter that is named by a single sign. -/
def isSpecial (c : Char) : Bool :=
  isDigit c || c = '@' || c = '*' || c = '#' || c = '?' || c = '$' || c = '!' || c = '-'

/-- A character that ends a word. -/
def isBreak (c : Char) : Bool :=
  c = ' ' || c = '\t' || c = '\n' || c = ';' || c = '&' || c = '|' || c = '<' || c = '>' ||
    c = '(' || c = ')'

/-- The text up to the parenthesis that closes an open one, and what follows it. Quoted
    parentheses do not count. -/
def untilClosed : (fuel depth : Nat) → Str → Except ScriptFault (Str × Str)
  | 0, _, _ => .error .openQuote
  | _, _, [] => .error (.unexpected endOfFile (some ")"))
  | n + 1, depth, c :: r =>
    let go (depth : Nat) (front rest : Str) :=
      (untilClosed n depth rest).map fun (a, b) => (front ++ a, b)
    if c = ')' then (if depth = 0 then .ok ([], r) else go (depth - 1) [c] r)
    else if c = '(' then go (depth + 1) [c] r
    else if c = '\\' then go depth (c :: r.take 1) (r.drop 1)
    else if c = '\x27' ∨ c = '\x22' then
      match Text.breakOn c r with
      | some (inner, rest) => go depth (c :: inner ++ [c]) rest
      | none => .error .openQuote
    else go depth [c] r

/-- What a dollar sign begins, with what follows it. A dollar sign can also stand for itself. -/
def dollar (quoted : Bool) (cs : Str) : Except ScriptFault (Piece × Str) :=
  match cs with
  | '(' :: r => (untilClosed (r.length + 1) 0 r).map fun (inner, rest) => (.output inner quoted, rest)
  | '\x7b' :: r =>
    match Text.breakOn '\x7d' r with
    | some (name, rest) => .ok (.parameter name quoted, rest)
    | none => .error .openBrace
  | c :: r =>
    if isNameStart c then
      .ok (.parameter (c :: r.takeWhile isNameChar) quoted, r.dropWhile isNameChar)
    else if isSpecial c then .ok (.parameter [c] quoted, r)
    else .ok (.plain ['$'] quoted, c :: r)
  | [] => .ok (.plain ['$'] quoted, [])

/-- The parts up to the next double quote, and what follows it. -/
def untilQuote : (fuel : Nat) → Str → Except ScriptFault (Word × Str)
  | 0, _ => .error .openQuote
  | _, [] => .error .openQuote
  | n + 1, c :: r =>
    let go (p : Piece) (rest : Str) := (untilQuote n rest).map fun (w, r) => (p :: w, r)
    if c = '\x22' then .ok ([], r)
    else if c = '\\' then
      match r with
      | [] => .error .openQuote
      | d :: r =>
        if d = '\n' then untilQuote n r
        else if d = '\\' ∨ d = '\x22' ∨ d = '$' ∨ d = '\x60' then go (.plain [d] true) r
        else go (.plain [c, d] true) r
    else if c = '$' then do
      let (p, rest) ← dollar true r
      go p rest
    else if c = '\x60' then
      match Text.breakOn '\x60' r with
      | some (inner, rest) => go (.output inner true) rest
      | none => .error .openQuote
    else go (.plain [c] true) r

/-- The parts of the word at the front, and what follows it. -/
def readWord : (fuel : Nat) → Str → Except ScriptFault (Word × Str)
  | 0, r => .ok ([], r)
  | _, [] => .ok ([], [])
  | n + 1, c :: r =>
    let go (w : Word) (rest : Str) := (readWord n rest).map fun (v, r) => (w ++ v, r)
    if isBreak c then .ok ([], c :: r)
    else if c = '\\' then
      match r with
      | [] => .ok ([.plain ['\\'] true], [])
      | d :: r => if d = '\n' then readWord n r else go [.plain [d] true] r
    else if c = '\x27' then
      match Text.breakOn c r with
      | some (inner, rest) => go [.plain inner true] rest
      | none => .error .openQuote
    else if c = '\x22' then do
      let (w, rest) ← untilQuote (r.length + 1) r
      go (if w.isEmpty then [.plain [] true] else w) rest
    else if c = '$' then do
      let (p, rest) ← dollar false r
      go [p] rest
    else if c = '\x60' then
      match Text.breakOn '\x60' r with
      | some (inner, rest) => go [.output inner false] rest
      | none => .error .openQuote
    else go [.plain [c] false] r

/-- The operator at the front, and what follows it. -/
def readOperator : Str → Option (Token × Str)
  | '&' :: '&' :: r => some (.operator "&&", r)
  | '|' :: '|' :: r => some (.operator "||", r)
  | ';' :: ';' :: r => some (.operator ";;", r)
  | '>' :: '&' :: r => some (.redirect 1 .same, r)
  | '>' :: '>' :: r => some (.redirect 1 .output, r)
  | '>' :: '|' :: r => some (.redirect 1 .output, r)
  | '<' :: '&' :: r => some (.redirect 0 .same, r)
  | '>' :: r => some (.redirect 1 .output, r)
  | '<' :: r => some (.redirect 0 .input, r)
  | '&' :: r => some (.operator "&", r)
  | '|' :: r => some (.operator "|", r)
  | ';' :: r => some (.operator ";", r)
  | '(' :: r => some (.operator "(", r)
  | ')' :: r => some (.operator ")", r)
  | '\n' :: r => some (.operator "\n", r)
  | _ => none

/-- The redirection at the front that begins with the number of a channel. -/
def readNumbered : Str → Option (Token × Str)
  | c :: d :: r =>
    if isDigit c && (d = '>' || d = '<') then
      match readOperator (d :: r) with
      | some (.redirect _ direction, rest) => some (.redirect (Text.digitValue c) direction, rest)
      | _ => none
    else none
  | _ => none

/-- The units of a script. -/
def tokensFrom : (fuel : Nat) → Str → Except ScriptFault (List Token)
  | 0, _ => .ok []
  | _, [] => .ok []
  | n + 1, c :: r =>
    if c = ' ' ∨ c = '\t' then tokensFrom n r
    else if c = '#' then tokensFrom n (r.dropWhile (· ≠ '\n'))
    else if c = '\\' && r.head? = some '\n' then tokensFrom n r.tail
    else
      match (readNumbered (c :: r)).or (readOperator (c :: r)) with
      | some (t, rest) => (tokensFrom n rest).map (t :: ·)
      | none => do
        let (w, rest) ← readWord (r.length + 1) (c :: r)
        (tokensFrom n rest).map (.word w :: ·)

/-- The units of a script. -/
def tokens (script : Str) : Except ScriptFault (List Token) :=
  tokensFrom (script.length + 1) script

end Scaffold.Shell
