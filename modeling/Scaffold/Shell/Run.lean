import Scaffold.Shell.Builtin
import Scaffold.Shell.Script

/-!
# `Scaffold.Shell.Run` — running commands

Three programs are known besides what the shell brings along: one that copies its input to its
output, one that waits, and the shell itself. All others are not found.

## Contents
- **Programs.** `copy`, `wait`.
- **Scripts.** `run` and the functions that go with it.
- **Commands.** `Result`, `execute`.
-/

namespace Scaffold.Shell

open Decimal (Binary64)

/-! ## Programs -/

/-- The end of a message about an option. -/
def tryHelp (program : Str) : Str :=
  Str.ofAscii "Try \x27" ++ program ++ Str.ofAscii " --help\x27 for more information.\n"

/-- The message about an option that a program does not know, if there is one. -/
def unknownOption? (program : Str) : List Str → Option Str
  | [] => none
  | ['-', '-'] :: _ => none
  | ('-' :: '-' :: r) :: _ =>
    some (program ++ Str.ofAscii ": unrecognized option \x27--" ++ r ++ Str.ofAscii "\x27\n" ++
      tryHelp program)
  | ('-' :: c :: _) :: _ =>
    some (program ++ Str.ofAscii ": invalid option -- \x27" ++ [c] ++ Str.ofAscii "\x27\n" ++
      tryHelp program)
  | _ :: r => unknownOption? program r

/-- Copies files to the output, the input where no file is named. No file exists. -/
def copy (program : Str) (args : List Str) (s : State) : State × Flow :=
  match unknownOption? program args with
  | some message => (s.print s.errors message).done 1
  | none =>
    let files := args.filter (· ≠ ['-', '-'])
    let files := if files.isEmpty then [['-']] else files
    let s := { s with status := 0 }
    let s := files.foldl (fun (s : State) f =>
      if f = ['-'] then { s.say s.input with input := [] }
      else
        let message := program ++ Str.ofAscii ": " ++ f ++ Str.ofAscii ": No such file or directory\n"
        { s.print s.errors message with status := 1 }) s
    (s, .next)

/-- The seconds that an argument asks to wait. -/
def secondsOf? (arg : Str) : Option Binary64 :=
  let units : List (Char × Int) := [('s', 1), ('m', 60), ('h', 3600), ('d', 86400)]
  let unit := (arg.getLast?).bind fun c => units.lookup c
  let number := if unit.isSome then arg.dropLast else arg
  (Decimal.readBareFloat? number).bind fun x =>
    if x.isNegative then none else some (x.mul (.ofInt (unit.getD 1)))

/-- Waits. -/
def wait (program : Str) (args : List Str) (s : State) : State × Flow :=
  match unknownOption? program args with
  | some message => (s.print s.errors message).done 1
  | none =>
    match args.filter (· ≠ ['-', '-']) with
    | [] =>
      (s.print s.errors (program ++ Str.ofAscii ": missing operand\n" ++ tryHelp program)).done 1
    | args =>
      match args.find? fun a => (secondsOf? a).isNone with
      | none => { s with waited := (args.filterMap secondsOf?).foldl Binary64.add s.waited }.done 0
      | some a =>
        let message := program ++ Str.ofAscii ": invalid time interval \x27" ++ a ++
          Str.ofAscii "\x27\n" ++ tryHelp program
        (s.print s.errors message).done 1

/-! ## Scripts -/

/-- The state in which a part of a script runs whose variables do not matter later. -/
def State.rejoin (s inner : State) : State :=
  { s with
    input := inner.input, buffers := inner.buffers, status := inner.status, waited := inner.waited }

/-- An isolated part of a script ends for itself. -/
def Flow.contained : Flow → Flow
  | .killed n => .killed n
  | .endless => .endless
  | _ => .next

/-- A buffer that is not in use. -/
def State.spare (s : State) : Nat := (s.buffers.map (·.1)).foldl max (max s.output s.errors) + 1

/-- Takes what is in a buffer. -/
def State.take (s : State) (n : Nat) : State × Str :=
  ({ s with buffers := s.buffers.filter fun (m, _) => m ≠ n }, s.buffer n)

/-- Without the line feeds at the end. -/
def trimEnd (text : Str) : Str := (text.reverse.dropWhile (· = '\n')).reverse

/-- A pattern: characters, some of which stand only for themselves. -/
abbrev Pattern := List (Char × Bool)

/-- The part is quoted. -/
def Piece.isQuoted : Piece → Bool
  | .plain _ q => q
  | .parameter _ q => q
  | .output _ q => q

/-- A text matches a pattern: a star stands for any text, a question mark for any character. -/
def matchesPattern : Pattern → Str → Bool
  | [], text => text.isEmpty
  | ('*', false) :: p, text =>
    matchesPattern p text ||
      match text with
      | [] => false
      | _ :: r => matchesPattern (('*', false) :: p) r
  | (c, literal) :: p, text =>
    match text with
    | [] => false
    | d :: r => (c = d || (c = '?' && !literal)) && matchesPattern p r
termination_by p text => p.length + text.length

/-- Applies a redirection to what a text names. -/
def redirect (s : State) (r : Redirect) (target : Str) : Except Str State :=
  let lead (buffer : Nat) : State :=
    if r.channel = 1 then { s with output := buffer }
    else if r.channel = 2 then { s with errors := buffer }
    else s
  match r.direction with
  | .same =>
    match target with
    | ['1'] => .ok (lead s.output)
    | ['2'] => .ok (lead s.errors)
    | _ => .ok (lead State.nowhere)
  | .output =>
    match String.ofList target with
    | "/dev/null" => .ok (lead State.nowhere)
    | "/dev/stdout" => .ok (lead s.output)
    | "/dev/stderr" => .ok (lead s.errors)
    | _ => .error (Str.ofAscii "cannot create " ++ target ++ Str.ofAscii ": Directory nonexistent")
  | .input =>
    match String.ofList target with
    | "/dev/null" => .ok { s with input := [] }
    | "/dev/stdin" => .ok s
    | _ => .error (Str.ofAscii "cannot open " ++ target ++ Str.ofAscii ": No such file")

/-- The state after a command, with its channels back where they were before. -/
def State.restore (s before : State) (redirects : List Redirect) : State :=
  { s with
    output := before.output
    errors := before.errors
    input := if redirects.any fun r => r.channel = 0 then before.input else s.input }

/-- Skips the options of the shell, and tells whether a script follows. -/
def readOptions : List Str → Except Str (Bool × List Str)
  | [] => .ok (false, [])
  | ('-' :: letters) :: r =>
    if letters = ['-'] then .ok (false, r)
    else
      match letters.find? fun c => !"abcCefimnqsuvxIE".toList.contains c with
      | some c => .error (Str.ofAscii "Illegal option -" ++ [c])
      | none => (readOptions r).map fun (script, rest) => (script || letters.contains 'c', rest)
  | args => .ok (false, args)

mutual

/-- Runs a script. `fuel` bounds how far it is followed. -/
def run : (fuel : Nat) → Script → State → State × Flow
  | 0, _, s => (s, .endless)
  | n + 1, script, s =>
    match script with
    | .nothing => s.done 0
    | .simple assignments words redirects => runSimple n assignments words redirects s
    | .seq first second =>
      match run n first s with
      | (s, .next) => if second matches .nothing then (s, .next) else run n second s
      | r => r
    | .both first second =>
      match run n first s with
      | (s, .next) => if s.status = 0 then run n second s else (s, .next)
      | r => r
    | .either first second =>
      match run n first s with
      | (s, .next) => if s.status = 0 then (s, .next) else run n second s
      | r => r
    | .not body =>
      match run n body s with
      | (s, .next) => s.answer (s.status ≠ 0)
      | r => r
    | .pipe source sink =>
      let pipe := s.spare
      let (inner, flow) := run n source { s with output := pipe }
      let s := s.rejoin inner
      match flow.contained with
      | .next =>
        let (s, passed) := s.take pipe
        let left := s.input
        let (inner, flow) := run n sink { s with input := passed }
        ({ s.rejoin inner with input := left }, flow.contained)
      | flow => (s, flow)
    | .choose test yes no =>
      match run n test s with
      | (s, .next) => if s.status = 0 then run n yes s else run n no s
      | r => r
    | .repeat whileTrue test body =>
      match run n test s with
      | (s, .next) =>
        if (s.status = 0) = whileTrue then
          match run n body s with
          | (s, .leave) => (s, .next)
          | (s, .next) | (s, .skip) => run n (.repeat whileTrue test body) s
          | r => r
        else s.done 0
      | r => r
    | .each name items body =>
      match items with
      | none => runEach n name body s.args s
      | some ws =>
        match expandAll n ws s with
        | (s, .error flow) => (s, flow)
        | (s, .ok values) => runEach n name body values s
    | .select subject patterns body next =>
      match expand n (subject.map Piece.whole) {} s with
      | (s, .error flow) => (s, flow)
      | (s, .ok f) =>
        match patternsOf n patterns s with
        | (s, .error flow) => (s, flow)
        | (s, .ok ps) =>
          if ps.any fun p => matchesPattern p f.joined then run n body s else run n next s
    | .group isolated body redirects =>
      match applyRedirects n redirects s with
      | (before, .error flow) => (before.restore s redirects, flow)
      | (inner, .ok ()) =>
        let (after, flow) := run n body inner
        let result := if isolated then inner.rejoin after else after
        (result.restore s redirects, if isolated then flow.contained else flow)

/-- Runs a script for each of some values. -/
def runEach : (fuel : Nat) → Str → Script → List Str → State → State × Flow
  | 0, _, _, _, s => (s, .endless)
  | _, _, _, [], s => (s, .next)
  | n + 1, name, body, v :: r, s =>
    match run n body (s.assign name v) with
    | (s, .leave) => (s, .next)
    | (s, .next) | (s, .skip) => runEach n name body r s
    | r => r

/-- Expands a word. -/
def expand : (fuel : Nat) → Word → Fields → State → State × Except Flow Fields
  | 0, _, _, s => (s, .error .endless)
  | _, [], f, s => (s, .ok f)
  | n + 1, p :: r, f, s =>
    match p with
    | .plain text _ => expand n r (f.add text) s
    | .parameter ['@'] true => expand n r (f.addWords s.args) s
    | .parameter name quoted =>
      let value := s.parameter name
      expand n r (if quoted then f.add value else f.addSplit value) s
    | .output script quoted =>
      match parse script with
      | .error fault => ({ s.complain (Str.ofAscii fault.message) with status := 2 }, .error .exit)
      | .ok script =>
        let pipe := s.spare
        let (inner, flow) := run n script { s with output := pipe }
        let (s, printed) := (s.rejoin inner).take pipe
        match flow.contained with
        | .next =>
          let printed := trimEnd printed
          expand n r (if quoted then f.add printed else f.addSplit printed) s
        | flow => (s, .error flow)

/-- Expands words. -/
def expandAll : (fuel : Nat) → List Word → State → State × Except Flow (List Str)
  | 0, _, s => (s, .error .endless)
  | _, [], s => (s, .ok [])
  | n + 1, w :: r, s =>
    match expand n w {} s with
    | (s, .error flow) => (s, .error flow)
    | (s, .ok f) =>
      match expandAll n r s with
      | (s, .error flow) => (s, .error flow)
      | (s, .ok words) => (s, .ok (f.words ++ words))

/-- Expands patterns. -/
def patternsOf : (fuel : Nat) → List Word → State → State × Except Flow (List Pattern)
  | 0, _, s => (s, .error .endless)
  | _, [], s => (s, .ok [])
  | n + 1, w :: r, s =>
    match patternOf n w s with
    | (s, .error flow) => (s, .error flow)
    | (s, .ok p) =>
      match patternsOf n r s with
      | (s, .error flow) => (s, .error flow)
      | (s, .ok ps) => (s, .ok (p :: ps))

/-- Expands a pattern, part by part. -/
def patternOf : (fuel : Nat) → Word → State → State × Except Flow Pattern
  | 0, _, s => (s, .error .endless)
  | _, [], s => (s, .ok [])
  | n + 1, p :: r, s =>
    match expand n [p.whole] {} s with
    | (s, .error flow) => (s, .error flow)
    | (s, .ok f) =>
      match patternOf n r s with
      | (s, .error flow) => (s, .error flow)
      | (s, .ok rest) => (s, .ok (f.joined.map (fun c => (c, p.isQuoted)) ++ rest))

/-- Applies redirections one after another. -/
def applyRedirects : (fuel : Nat) → List Redirect → State → State × Except Flow Unit
  | 0, _, s => (s, .error .endless)
  | _, [], s => (s, .ok ())
  | n + 1, r :: rest, s =>
    match expand n (r.target.map Piece.whole) {} s with
    | (s, .error flow) => (s, .error flow)
    | (s, .ok f) =>
      match redirect s r f.joined with
      | .ok s => applyRedirects n rest s
      | .error message => ({ s.complain message with status := 2 }, .error .next)

/-- Makes assignments one after another. -/
def assignAll : (fuel : Nat) → List (Str × Word) → State → State × Except Flow Unit
  | 0, _, s => (s, .error .endless)
  | _, [], s => (s, .ok ())
  | n + 1, (name, w) :: rest, s =>
    match expand n (w.map Piece.whole) {} s with
    | (s, .error flow) => (s, .error flow)
    | (s, .ok f) => assignAll n rest (s.assign name f.joined)

/-- Runs a simple command. -/
def runSimple : (fuel : Nat) → List (Str × Word) → List Word → List Redirect → State → State × Flow
  | 0, _, _, _, s => (s, .endless)
  | n + 1, assignments, words, redirects, s =>
    match expandAll n words s with
    | (s, .error flow) => (s, flow)
    | (s, .ok words) =>
      match applyRedirects n redirects s with
      | (inner, .error flow) => (inner.restore s redirects, flow)
      | (inner, .ok ()) =>
        match words with
        | [] =>
          match assignAll n assignments { inner with status := 0 } with
          | (after, .error flow) => (after.restore s redirects, flow)
          | (after, .ok ()) => (after.restore s redirects, .next)
        | name :: args =>
          if name = Str.ofAscii "exec" then
            match args with
            | [] => inner.done 0
            | program :: args =>
              let (after, flow) := runProgram n (Str.ofAscii "exec: ") program args inner
              (after, match flow with | .next => .exit | flow => flow)
          else
            let (after, flow) := match builtin? name with
              | some f => f inner args
              | none => runProgram n [] name args inner
            (after.restore s redirects, flow)

/-- Runs a program; `origin` stands in front of the message that there is none. -/
def runProgram : (fuel : Nat) → (origin program : Str) → List Str → State → State × Flow
  | 0, _, _, _, s => (s, .endless)
  | n + 1, origin, program, args, s =>
    match programAt program.decoded with
    | .ok "/bin/cat" => copy program args s
    | .ok "/bin/sleep" => wait program args s
    | .ok _ =>
      let (after, flow) := runShell n program args s
      match flow with
      | .killed signal => (s.rejoin after).done (128 + signal)
      | flow => (s.rejoin after, flow.contained)
    | .error e =>
      let reason := if e.saysAbsent then "not found" else e.message
      let status := if e = .forbidden then 126 else 127
      s.fail status (origin ++ program ++ Str.ofAscii (": " ++ reason))

/-- Runs the shell on its arguments. -/
def runShell : (fuel : Nat) → (program : Str) → List Str → State → State × Flow
  | 0, _, _, s => (s, .endless)
  | n + 1, program, args, s =>
    let refuse (message : Str) : State × Flow :=
      (s.print s.errors (program ++ Str.ofAscii ": 0: " ++ message ++ ['\n'])).done 2
    let start (script : Str) (name : Str) (args : List Str) (input : Str) : State × Flow :=
      let inner : State := { s with name, args, input, bindings := [], status := 0 }
      match parse script with
      | .error fault => (inner.complain (Str.ofAscii fault.message)).done 2
      | .ok script => run n script inner
    match readOptions args with
    | .error message => refuse message
    | .ok (true, script :: rest) => start script (rest.headD program) rest.tail s.input
    | .ok (true, []) => refuse (Str.ofAscii "-c requires an argument")
    | .ok (false, []) => start s.input program [] []
    | .ok (false, file :: _) =>
      refuse (Str.ofAscii "cannot open " ++ file ++ Str.ofAscii ": No such file")

end

/-! ## Commands -/

/-- How a command ended. -/
inductive Ending
  | exited (status : Nat)
  | killed (signal : Nat)
  /-- It goes on for ever. -/
  | never
  deriving DecidableEq, Repr

/-- What came of a command: how it ended, what it printed, and how long it waited. -/
structure Result where
  ending : Ending
  output : List UInt8
  errors : List UInt8
  waited : Binary64

/-- How far scripts are followed. -/
def patience : Nat := 20000

/-- The length from which on an argument is refused, in bytes. -/
def argumentLimit : Nat := 131072

/-- Starts a program with arguments, and passes it an input. -/
def execute (program : String) (args : List String) (input : List UInt8) :
    Except Disk.Errno Result := do
  let found ← programAt program
  if args.any fun a => argumentLimit ≤ a.utf8ByteSize then .error .tooManyArguments
  let name := Str.ofText program
  let s : State := { name, args := [], input := input.map fun b => Char.ofNat b.toNat }
  let args := args.map Str.ofText
  let (s, flow) :=
    if found = "/bin/sh" then runShell patience name args s else runProgram patience [] name args s
  let ending := match flow with
    | .killed n => .killed n
    | .endless => .never
    | _ => .exited s.status
  return ⟨ending, (s.buffer 1).bytes, (s.buffer 2).bytes, s.waited⟩

end Scaffold.Shell
