import Scaffold.Shell.Word

/-!
# `Scaffold.Shell.Script` — the grammar of shell scripts

## Contents
- **Scripts.** `Redirect`, `Script`.
- **Parsing.** `parse`.
-/

namespace Scaffold.Shell

/-! ## Scripts -/

/-- A redirection of a channel to what a word names. -/
structure Redirect where
  channel : Nat
  direction : Direction
  target : Word
  deriving DecidableEq, Repr

/-- A script. -/
inductive Script
  | nothing
  /-- Assignments to variables, the words of a command, and redirections. -/
  | simple (assignments : List (Str × Word)) (words : List Word) (redirects : List Redirect)
  | seq (first second : Script)
  | both (first second : Script)
  | either (first second : Script)
  | not (body : Script)
  | pipe (source sink : Script)
  | choose (test yes no : Script)
  /-- Repeats while the test succeeds, or as long as it fails. -/
  | repeat (whileTrue : Bool) (test body : Script)
  /-- Repeats for each of some words, or for each argument. -/
  | each (name : Str) (items : Option (List Word)) (body : Script)
  /-- Runs the body if the subject matches one of the patterns. -/
  | select (subject : Word) (patterns : List Word) (body next : Script)
  /-- A group; an isolated one leaves the variables as they were. -/
  | group (isolated : Bool) (body : Script) (redirects : List Redirect)
  deriving Repr

/-! ## Parsing -/

/-- A result and what is left. -/
abbrev Parsed (α : Type) := α × List Token

/-- The text of a word without quotes and parameters. -/
def literal? : Word → Option Str
  | [] => some []
  | .plain text false :: r => (literal? r).map (text ++ ·)
  | _ => none

/-- The reserved word at the front. -/
def reserved? : List Token → Option String
  | .word w :: _ =>
    (literal? w).bind fun s =>
      ["if", "then", "elif", "else", "fi", "while", "until", "do", "done", "for", "in", "\x7b", "\x7d",
       "!", "case", "esac"].find? fun k => k.toList = s
  | _ => none

/-- How messages show a unit. -/
def Token.shown : Token → String
  | .word w => (literal? w).elim "word" String.ofList
  | .operator "\n" => "newline"
  | .operator s => s
  | .redirect _ _ => "redirection"

/-- The fault at what is left, where something else may be wanted. -/
def unexpectedAt {α : Type} (ts : List Token) (wanted : Option String := none) :
    Except ScriptFault (Parsed α) :=
  match ts with
  | [] => .error (.unexpected endOfFile wanted)
  | t :: _ => .error (.unexpected t.shown wanted)

/-- What follows a reserved word. -/
def expect (word : String) (ts : List Token) : Except ScriptFault (Parsed Unit) :=
  if reserved? ts = some word then .ok ((), ts.tail) else unexpectedAt ts (some word)

/-- Without the line breaks at the front. -/
def skipBreaks : List Token → List Token
  | .operator "\n" :: r => skipBreaks r
  | ts => ts

/-- The assignment that a word makes. -/
def assignment? : Word → Option (Str × Word)
  | w =>
    let name := w.takeWhile fun p => match p with
      | .plain [c] false => c ≠ '='
      | _ => false
    match w.drop name.length, literal? name with
    | .plain ['='] false :: value, some (c :: r) =>
      if isNameStart c && r.all isNameChar then some (c :: r, value) else none
    | _, _ => none

/-- The redirections at the front. -/
def readRedirects : List Token → Except ScriptFault (Parsed (List Redirect))
  | .redirect channel direction :: .word w :: r =>
    (readRedirects r).map fun (rs, rest) => (⟨channel, direction, w⟩ :: rs, rest)
  | .redirect _ _ :: r => unexpectedAt r
  | ts => .ok ([], ts)

/-- The words and redirections of a command. -/
def readSimple (assignments : List (Str × Word)) (words : List Word) (redirects : List Redirect) :
    List Token → Except ScriptFault (Parsed Script)
  | .word w :: r =>
    match words, assignment? w with
    | [], some a => readSimple (assignments ++ [a]) [] redirects r
    | _, _ => readSimple assignments (words ++ [w]) redirects r
  | .redirect channel direction :: .word w :: r =>
    readSimple assignments words (redirects ++ [⟨channel, direction, w⟩]) r
  | .redirect _ _ :: r => unexpectedAt r
  | ts => .ok (.simple assignments words redirects, ts)

/-- The words of a loop up to the end of its line. -/
def readItems : List Token → List Word × List Token
  | .word w :: r =>
    let (ws, rest) := readItems r
    (w :: ws, rest)
  | .operator ";" :: r => ([], r)
  | ts => ([], ts)

/-- Patterns up to the parenthesis behind them. -/
def readPatterns : List Token → Except ScriptFault (Parsed (List Word))
  | .word w :: .operator ")" :: r => .ok ([w], r)
  | .word w :: .operator "|" :: r => (readPatterns r).map fun (ws, rest) => (w :: ws, rest)
  | .word _ :: r => unexpectedAt r (some ")")
  | r => unexpectedAt r

mutual

/-- Commands one after another, as far as they go. `fuel` bounds the depth. -/
def readList : (fuel : Nat) → List Token → Except ScriptFault (Parsed Script)
  | 0, ts => unexpectedAt ts
  | n + 1, ts =>
    let ts := skipBreaks ts
    match ts with
    | [] => .ok (.nothing, [])
    | .operator ")" :: _ => .ok (.nothing, ts)
    | .operator ";;" :: _ => .ok (.nothing, ts)
    | _ =>
      match reserved? ts with
      | some "then" | some "elif" | some "else" | some "fi" | some "do" | some "done" | some "esac"
      | some "\x7d" => .ok (.nothing, ts)
      | _ => do
        let (first, r) ← readPipeline n ts
        let (first, r) ← readAndOr n first r
        match r with
        | .operator ";" :: r =>
          let (second, r) ← readList n r
          .ok (.seq first second, r)
        | .operator "\n" :: r =>
          let (second, r) ← readList n r
          .ok (.seq first second, r)
        | r => .ok (first, r)

/-- Goes on with commands that run only if those before succeed, or fail. -/
def readAndOr : (fuel : Nat) → Script → List Token → Except ScriptFault (Parsed Script)
  | 0, _, ts => unexpectedAt ts
  | n + 1, first, ts =>
    match ts with
    | .operator "&&" :: r => do
      let (second, r) ← readPipeline n (skipBreaks r)
      readAndOr n (.both first second) r
    | .operator "||" :: r => do
      let (second, r) ← readPipeline n (skipBreaks r)
      readAndOr n (.either first second) r
    | ts => .ok (first, ts)

/-- Commands that pass their output on. -/
def readPipeline : (fuel : Nat) → List Token → Except ScriptFault (Parsed Script)
  | 0, ts => unexpectedAt ts
  | n + 1, ts =>
    if reserved? ts = some "!" then do
      let (body, r) ← readPipeline n ts.tail
      .ok (.not body, r)
    else do
      let (first, r) ← readCommand n ts
      match r with
      | .operator "|" :: r =>
        let (second, r) ← readPipeline n (skipBreaks r)
        .ok (.pipe first second, r)
      | r => .ok (first, r)

/-- A command with its redirections. -/
def readCommand : (fuel : Nat) → List Token → Except ScriptFault (Parsed Script)
  | 0, ts => unexpectedAt ts
  | n + 1, ts =>
    let wrap (isolated : Bool) (body : Script) (r : List Token) : Except ScriptFault (Parsed Script) := do
      let (redirects, r) ← readRedirects r
      .ok (.group isolated body redirects, r)
    match ts with
    | .operator "(" :: r => do
      let (body, r) ← readList n r
      match r with
      | .operator ")" :: r => wrap true body r
      | r => unexpectedAt r (some ")")
    | .operator _ :: _ => unexpectedAt ts
    | [] => unexpectedAt ts
    | _ =>
      match reserved? ts with
      | none => readSimple [] [] [] ts
      | some "\x7b" => do
        let (body, r) ← readList n ts.tail
        let ((), r) ← expect "\x7d" r
        wrap false body r
      | some "if" => do
        let (body, r) ← readChoice n ts.tail
        wrap false body r
      | some "while" => do
        let (body, r) ← readLoop n true ts.tail
        wrap false body r
      | some "until" => do
        let (body, r) ← readLoop n false ts.tail
        wrap false body r
      | some "case" => do
        match ts.tail with
        | .word w :: r =>
          let ((), r) ← expect "in" (skipBreaks r)
          let (body, r) ← readArms n w (skipBreaks r)
          wrap false body r
        | r => unexpectedAt r
      | some "for" => do
        match ts.tail with
        | .word w :: r =>
          let items :=
            if reserved? (skipBreaks r) = some "in" then (readItems (skipBreaks r).tail).map some id
            else (none, match r with | .operator ";" :: r => r | r => r)
          let ((), r) ← expect "do" (skipBreaks items.2)
          let (body, r) ← readList n r
          let ((), r) ← expect "done" r
          wrap false (.each ((literal? w).getD []) items.1 body) r
        | _ => .error .badLoopVariable
      | some _ => unexpectedAt ts

/-- The patterns with their scripts that a subject is compared with. -/
def readArms : (fuel : Nat) → Word → List Token → Except ScriptFault (Parsed Script)
  | 0, _, ts => unexpectedAt ts
  | n + 1, subject, ts =>
    if reserved? ts = some "esac" then .ok (.nothing, ts.tail)
    else do
      let ts := match ts with
        | .operator "(" :: r => r
        | ts => ts
      let (patterns, r) ← readPatterns ts
      let (body, r) ← readList n r
      match r with
      | .operator ";;" :: r =>
        let (next, r) ← readArms n subject (skipBreaks r)
        .ok (.select subject patterns body next, r)
      | r => do
        let ((), r) ← expect "esac" r
        .ok (.select subject patterns body .nothing, r)

/-- What follows `if` or `elif`. -/
def readChoice : (fuel : Nat) → List Token → Except ScriptFault (Parsed Script)
  | 0, ts => unexpectedAt ts
  | n + 1, ts => do
    let (test, r) ← readList n ts
    let ((), r) ← expect "then" r
    let (yes, r) ← readList n r
    match reserved? r with
    | some "elif" =>
      let (no, r) ← readChoice n r.tail
      .ok (.choose test yes no, r)
    | some "else" =>
      let (no, r) ← readList n r.tail
      let ((), r) ← expect "fi" r
      .ok (.choose test yes no, r)
    | _ =>
      let ((), r) ← expect "fi" r
      .ok (.choose test yes .nothing, r)

/-- What follows `while` or `until`. -/
def readLoop : (fuel : Nat) → Bool → List Token → Except ScriptFault (Parsed Script)
  | 0, _, ts => unexpectedAt ts
  | n + 1, whileTrue, ts => do
    let (test, r) ← readList n ts
    let ((), r) ← expect "do" r
    let (body, r) ← readList n r
    let ((), r) ← expect "done" r
    .ok (.repeat whileTrue test body, r)

end

/-- The script that a text spells. -/
def parse (script : Str) : Except ScriptFault Script := do
  let ts ← tokens script
  match ← readList (6 * ts.length + 6) ts with
  | (s, []) => .ok s
  | (_, t :: _) => .error (.unexpected t.shown none)

end Scaffold.Shell
