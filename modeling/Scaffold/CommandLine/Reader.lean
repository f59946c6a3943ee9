import Scaffold.CommandLine.Flag

/-!
# `Scaffold.CommandLine.Reader` — reading the arguments of the command line

An argument is an option if it is spelled like one: with two dashes any beginning that only one
option has will do, with one dash single letters can stand together. A value follows its option as
an argument of its own, or behind an equals sign, or right behind a letter.

## Contents
- **Words.** `Word`, `Word.ofText`, `wordsOf`: what each argument is.
- **Letters.** `Cluster`, `cluster`: the options of one argument.
- **Requests.** `consume`, `read`.
-/

namespace Scaffold.CommandLine

open Text (isDigit startsWith)

/-! ## Words -/

/-- An option as it was spelled: whether by a letter, and what was attached to it. -/
structure Mention where
  flag : Flag
  letter : Bool
  attached : Option (List Char)

/-- What an argument is. -/
inductive Word
  | plain
  | option (m : Mention)
  /-- It looks like an option, but there is none of that spelling. -/
  | unknown

/-- The characters are digits, at least one. -/
def allDigits (cs : List Char) : Bool := !cs.isEmpty && cs.all fun c => isDigit (Decimal.asciiDigit c)

/-- Without a line feed at the end. -/
def dropFinalBreak (cs : List Char) : List Char :=
  if cs.getLast? = some '\n' then cs.dropLast else cs

/-- A dash and a number in decimal. -/
def isNegativeNumber : List Char → Bool
  | '-' :: r =>
    let r := dropFinalBreak r
    allDigits r ||
      match Text.breakOn '.' r with
      | some (whole, part) => (whole.isEmpty || allDigits whole) && allDigits part
      | none => false
  | _ => false

/-- The text before the first equals sign, and the text after it if there is one. -/
def splitEquals (cs : List Char) : List Char × Option (List Char) :=
  match Text.breakOn '=' cs with
  | some (before, after) => (before, some after)
  | none => (cs, none)

/-- The options that a spelling with two dashes can stand for. -/
def longCandidates (beginning : List Char) (attached : Option (List Char)) : List Mention :=
  (Flag.spelled.filter fun (s, _) => startsWith beginning s.toList).map fun (_, f) =>
    ⟨f, false, attached⟩

/-- The option that the letter after a dash stands for. -/
def letterFlag? (c : Char) : Option Flag := Flag.find? (String.ofList ['-', c])

/-- The options that a spelling can stand for that is none in full. -/
def candidates (cs : List Char) : List Mention :=
  match cs with
  | '-' :: '-' :: _ =>
    let (beginning, attached) := splitEquals cs
    longCandidates beginning attached
  | '-' :: c :: r =>
    match letterFlag? c with
    | some f => [⟨f, true, some r⟩]
    | none => []
  | _ => []

/-- A spelling with a single dash. -/
def isLetter (cs : List Char) : Bool := !startsWith ['-', '-'] cs

/-- The option that a whole argument spells, or that stands before its equals sign. -/
def spelled? (cs : List Char) : Option Mention :=
  match Flag.find? (String.ofList cs) with
  | some f => some ⟨f, isLetter cs, none⟩
  | none =>
    match splitEquals cs with
    | (name, some attached) =>
      (Flag.find? (String.ofList name)).map fun f => ⟨f, isLetter name, some attached⟩
    | (_, none) => none

/-- What an argument is. A beginning that several options have is refused. -/
def Word.ofText (text : String) : Except Ending Word :=
  match text.toList with
  | '-' :: c :: r =>
    let cs := '-' :: c :: r
    match spelled? cs with
    | some m => .ok (.option m)
    | none =>
      match candidates cs with
      | [m] => .ok (.option m)
      | _ :: _ :: _ => .error .usage
      | [] => .ok (if isNegativeNumber cs || cs.contains ' ' then .plain else .unknown)
  | _ => .ok .plain

/-- What each argument is. After two dashes alone no argument is an option; the dashes themselves
    are no value. -/
def wordsOf : List String → Except Ending (List (String × Word))
  | [] => .ok []
  | a :: r =>
    if a = endMark then .ok ((a, .unknown) :: r.map fun s => (s, .plain))
    else do
      let w ← Word.ofText a
      return (a, w) :: (← wordsOf r)

/-! ## Letters -/

/-- The options of one argument: those that are complete, and the last one if it still waits for its
    value. -/
structure Cluster where
  given : List (Flag × Option String)
  waiting : Option Flag

/-- An option with nothing attached. -/
def bare (f : Flag) : Cluster :=
  if f.effect.takesValue then ⟨[], some f⟩ else ⟨[(f, none)], none⟩

/-- The options of an argument whose first option has something attached: its value, or more
    letters. -/
def cluster (f : Flag) (letter : Bool) (attached : List Char) : Except Ending Cluster :=
  if f.effect.takesValue then .ok ⟨[(f, some (String.ofList attached))], none⟩
  else match attached with
    | [] => .error .usage
    | c :: r =>
      match letter, letterFlag? c with
      | true, some g =>
        let rest := if r.isEmpty then .ok (bare g) else cluster g true r
        rest.map fun k => { k with given := (f, none) :: k.given }
      | _, _ => .error .usage

/-- The options of an argument. -/
def Mention.cluster (m : Mention) : Except Ending Cluster :=
  match m.attached with
  | none => .ok (bare m.flag)
  | some attached => CommandLine.cluster m.flag m.letter attached

/-! ## Requests -/

/-- The request after some options. -/
def applyAll (q : Request) : List (Flag × Option String) → Except Ending Request
  | [] => .ok q
  | (f, v) :: r => do applyAll (← q.apply f v) r

/-- The request after some words. `stray` tells whether a word before them belongs to no option;
    this is a fault only if nothing ends the reading before. -/
def consume (q : Request) (stray : Bool) : List (String × Word) → Except Ending Request
  | [] => if stray then .error .usage else .ok q
  | (_, .option m) :: r => do
    let k ← m.cluster
    match k.waiting with
    | none => consume (← applyAll q k.given) stray r
    | some f =>
      match r with
      | (value, .plain) :: r => consume (← applyAll q (k.given ++ [(f, some value)])) stray r
      | _ => .error .usage
  | _ :: r => consume q true r

/-- The request that the arguments make, and the schema file that it is about. -/
def read (args : List String) : Except Ending (Request × Value) := do
  let q ← consume {} false (← wordsOf args)
  match q.schema with
  | some path => return (q, path)
  | none => throw .usage

end Scaffold.CommandLine
