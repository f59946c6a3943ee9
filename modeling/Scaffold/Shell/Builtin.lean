import Scaffold.Shell.Machine
import Scaffold.Shell.State

/-!
# `Scaffold.Shell.Builtin` — the commands that the shell brings along

## Contents
- **Escapes.** `escape`, `unescape`.
- **Printing.** `echo`, `Format`, `printf`.
- **Questions.** `test`.
- **Others.** `readLine`, `kill`.
- **All.** `builtin?`.
-/

namespace Scaffold.Shell

open Decimal (digitsOf)
open Text (isDigit)

/-! ## Escapes -/

/-- A digit of base 8. -/
def isOctal (c : Char) : Bool := '0' ≤ c && c ≤ '7'

/-- The byte that digits of base 8 stand for. -/
def octalByte (ds : Str) : Char :=
  Char.ofNat ((ds.foldl (fun n c => n * 8 + Text.digitValue c) 0) % 256)

/-- The character that a letter after a backslash stands for. -/
def escapeOf? (c : Char) : Option Char :=
  [('\\', '\\'), ('a', '\x07'), ('b', '\x08'), ('f', '\x0c'), ('n', '\n'), ('r', '\r'),
   ('t', '\t'), ('v', '\x0b')].lookup c

/-- What a backslash begins, and what follows it. -/
def escape (r : Str) : Str × Str :=
  match r with
  | [] => (['\\'], [])
  | c :: r =>
    match escapeOf? c with
    | some d => ([d], r)
    | none =>
      if isOctal c then
        let ds := (c :: r).take 3 |>.takeWhile isOctal
        ([octalByte ds], (c :: r).drop ds.length)
      else (['\\', c], r)

/-- A text with its escapes replaced; the flag tells that printing ends with it. Digits of base 8
    may follow a zero. -/
def unescape : (fuel : Nat) → Str → Str × Bool
  | 0, _ => ([], false)
  | _, [] => ([], false)
  | n + 1, '\\' :: r =>
    let go (front rest : Str) :=
      let (back, ends) := unescape n rest
      (front ++ back, ends)
    match r with
    | 'c' :: _ => ([], true)
    | '0' :: r =>
      let ds := r.take 3 |>.takeWhile isOctal
      go [octalByte ds] (r.drop ds.length)
    | r =>
      let (front, rest) := escape r
      go front rest
  | n + 1, c :: r =>
    let (back, ends) := unescape n r
    (c :: back, ends)

/-- A whole text with its escapes replaced. -/
def unescaped (text : Str) : Str × Bool := unescape (text.length + 1) text

/-! ## Printing -/

/-- Prints the arguments, and a line feed unless the first of them is against it. -/
def echo (args : List Str) : Str :=
  let (args, ending) := match args with
    | ['-', 'n'] :: r => (r, ([] : Str))
    | args => (args, ['\n'])
  let (text, ends) := unescaped (([' '] : Str).intercalate args)
  if ends then text else text ++ ending

/-- How a value is printed. -/
structure Format where
  left : Bool
  zeros : Bool
  width : Nat
  limit : Option Nat
  kind : Char

/-- The format after a percent sign, and what follows it. -/
def readFormat (r : Str) : Option (Format × Str) :=
  let isFlag (c : Char) := c = '-' || c = '0' || c = '+' || c = ' ' || c = '#'
  let flags := r.takeWhile isFlag
  let r := r.dropWhile isFlag
  let width := r.takeWhile isDigit
  let r := r.dropWhile isDigit
  let (limit, r) := match r with
    | '.' :: r => (some (Decimal.natOf (r.takeWhile isDigit)), r.dropWhile isDigit)
    | r => (none, r)
  match r with
  | [] => none
  | kind :: r =>
    some (⟨flags.contains '-', flags.contains '0', Decimal.natOf width, limit, kind⟩, r)

/-- A text filled up to the width of a format. -/
def Format.pad (f : Format) (fill : Char) (text : Str) : Str :=
  let gap := List.replicate (f.width - text.length) fill
  if f.left then text ++ gap.map fun _ => ' ' else gap ++ text

/-- A number in the format. -/
def Format.number (f : Format) (n : Int) : Str :=
  let base := match f.kind with
    | 'o' => 8
    | 'x' | 'X' => 16
    | _ => 10
  let ds := Nat.toDigits base n.natAbs
  let ds := if f.kind = 'X' then ds.map Text.upperChar else ds
  let ds := List.replicate (f.limit.getD 0 - ds.length) '0' ++ ds
  if n < 0 then
    if f.zeros && !f.left then '-' :: { f with width := f.width - 1 }.pad '0' ds
    else f.pad ' ' ('-' :: ds)
  else f.pad (if f.zeros && !f.left then '0' else ' ') ds

/-- The number that an argument spells, if all of it does. -/
def readNumber (arg : Str) : Option Int :=
  match arg with
  | [] => some 0
  | '\x27' :: c :: _ => some c.toNat
  | '\x22' :: c :: _ => some c.toNat
  | _ =>
    let (negative, ds) := match arg.dropWhile Fields.isSeparator with
      | '-' :: r => (true, r)
      | '+' :: r => (false, r)
      | r => (false, r)
    let value := match ds with
      | '0' :: 'x' :: r => Decimal.readNat? 16 r
      | '0' :: 'X' :: r => Decimal.readNat? 16 r
      | '0' :: c :: r => Decimal.readNat? 8 (c :: r)
      | r => Decimal.readNat? 10 r
    value.map fun n => if negative then -(n : Int) else n

/-- What was printed by a format so far: the text, the arguments that are left, whether an argument
    was of no use, and whether printing ends. -/
structure Printed where
  text : Str := []
  args : List Str
  faulty : List Str := []
  ends : Bool := false
  /-- A percent sign stands at the end of the format. -/
  unfinished : Bool := false

/-- Prints one value. -/
def printValue (f : Format) (p : Printed) : Printed :=
  let arg := p.args.headD []
  let rest := p.args.tail
  let put (text : Str) : Printed := { p with text := p.text ++ text, args := rest }
  match f.kind with
  | 's' => put (f.pad ' ' (match f.limit with | some n => arg.take n | none => arg))
  | 'c' => put (f.pad ' ' (arg.take 1))
  | 'b' =>
    let (text, ends) := unescaped arg
    { put (f.pad ' ' text) with ends }
  | _ =>
    match readNumber arg with
    | some n => put (f.number n)
    | none => { put (f.number 0) with faulty := p.faulty ++ [arg] }

/-- Prints by a format once. -/
def printOnce : (fuel : Nat) → Str → Printed → Printed
  | 0, _, p => p
  | _, [], p => p
  | n + 1, c :: r, p =>
    if p.ends then p
    else if c = '\\' then
      let (text, rest) := escape r
      printOnce n rest { p with text := p.text ++ text }
    else if c = '%' then
      match r with
      | '%' :: r => printOnce n r { p with text := p.text ++ ['%'] }
      | r =>
        match readFormat r with
        | some (f, rest) => printOnce n rest (printValue f p)
        | none => { p with ends := true, unfinished := true }
    else printOnce n r { p with text := p.text ++ [c] }

/-- Prints by a format as long as it takes arguments. -/
def printAll (format : Str) : (fuel : Nat) → Printed → Printed
  | 0, p => p
  | n + 1, p =>
    let q := printOnce (format.length + 1) format p
    if q.ends || q.args.isEmpty || q.args.length = p.args.length then q else printAll format n q

/-- Prints arguments by a format. -/
def printf (s : State) (args : List Str) : State × Flow :=
  match args with
  | [] => s.fail 2 (Str.ofAscii "printf: usage: printf format [arg ...]")
  | format :: args =>
    let p := printAll format (args.length + 1) { args }
    let s := p.faulty.foldl
      (fun s arg => s.complain (Str.ofAscii "printf: " ++ arg ++ Str.ofAscii ": expected numeric value"))
      (s.say p.text)
    if p.unfinished then s.fail 2 (Str.ofAscii "printf: missing format character")
    else s.answer p.faulty.isEmpty

/-! ## Questions -/

/-- Compares two texts or two numbers. -/
def compare? (op : Str) (a b : Str) : Option Bool :=
  let numbers (f : Int → Int → Bool) : Option Bool :=
    match readNumber a, readNumber b with
    | some n, some m => some (f n m)
    | _, _ => none
  match String.ofList op with
  | "=" => some (a = b)
  | "!=" => some (a ≠ b)
  | "-eq" => numbers (· = ·)
  | "-ne" => numbers (· ≠ ·)
  | "-lt" => numbers (· < ·)
  | "-le" => numbers (· ≤ ·)
  | "-gt" => numbers (· > ·)
  | "-ge" => numbers (· ≥ ·)
  | _ => none

/-- Answers a question about one text, or about the file that it names. -/
def check? (op : Str) (a : Str) : Option Bool :=
  match String.ofList op with
  | "-n" => some (!a.isEmpty)
  | "-z" => some a.isEmpty
  | "!" => some a.isEmpty
  | "-e" | "-r" => some (entryAt? a.decoded).isSome
  | "-d" => some (entryAt? a.decoded = some .directory)
  | "-f" | "-s" => some (programAt a.decoded).isOk
  | "-x" => some (entryAt? a.decoded = some .directory || (programAt a.decoded).isOk)
  | "-h" | "-L" | "-w" => some false
  | _ => none

/-- Answers a question, if it is one. -/
def test? : List Str → Option Bool
  | [] => some false
  | [a] => some (!a.isEmpty)
  | [op, a] => check? op a
  | [a, op, b] =>
    match compare? op a b with
    | some r => some r
    | none => if a = ['!'] then (check? op b).map (!·) else none
  | [n, a, op, b] => if n = ['!'] then (compare? op a b).map (!·) else none
  | _ => none

/-- Answers a question that may consist of several ones. -/
def testAll? (args : List Str) : Option Bool :=
  let parts (mark : String) (xs : List Str) := (xs.splitOnP (· = Str.ofAscii mark))
  if args.length ≤ 4 then test? args
  else
    (parts "-o" args).foldl (fun r xs => do
      let some a := r | none
      let some b := (parts "-a" xs).foldl (fun r ys => do
        let some a := r | none
        let some b := test? ys | none
        some (a && b)) (some true) | none
      some (a || b)) (some false)

/-- The status of a question. -/
def test (s : State) (args : List Str) : State × Flow :=
  match testAll? args with
  | some r => s.answer r
  | none => s.done 2

/-! ## Others -/

/-- Gives the words of a line to variables; the last one takes all that are left. -/
def assignWords (s : State) : List Str → List Str → State
  | [], _ => s
  | [n], ws => s.assign n (([' '] : Str).intercalate ws)
  | n :: m :: r, ws => assignWords (s.assign n (ws.headD [])) (m :: r) ws.tail

/-- Reads a line into variables. -/
def readLine (s : State) (args : List Str) : State × Flow :=
  let names := args.filter fun a => a.head? ≠ some '-'
  let line := s.input.takeWhile (· ≠ '\n')
  let ended := line.length < s.input.length
  let s := { s with input := s.input.drop (line.length + 1) }
  (assignWords s names (({} : Fields).addSplit line).words).answer ended

/-- The signals that end a process, by their names. -/
def signals : List (String × Nat) :=
  [("HUP", 1), ("INT", 2), ("QUIT", 3), ("ILL", 4), ("TRAP", 5), ("ABRT", 6), ("BUS", 7),
   ("FPE", 8), ("KILL", 9), ("USR1", 10), ("SEGV", 11), ("USR2", 12), ("PIPE", 13), ("ALRM", 14),
   ("TERM", 15)]

/-- The signal of a number or name. -/
def signalOf? (text : Str) : Option Nat :=
  (Decimal.readNat? 10 text).or (signals.lookup (String.ofList text))

/-- Sends a signal to processes. The only one there is the shell itself. -/
def kill (s : State) (args : List Str) : State × Flow :=
  let (signal, targets) := match args with
    | ['-', 's'] :: name :: r => (signalOf? name, r)
    | ('-' :: name) :: r => (signalOf? name, r)
    | r => (some 15, r)
  match signal with
  | none => s.fail 2 (Str.ofAscii "kill: bad signal")
  | some n =>
    if targets.contains processId then
      if n = 0 then s.done 0 else if signals.any (·.2 = n) then (s, .killed n) else s.done 0
    else s.fail 1 (Str.ofAscii "kill: No such process")

/-- Ends the shell. -/
def exit (s : State) (args : List Str) : State × Flow :=
  match args with
  | [] => (s, .exit)
  | a :: _ =>
    match Decimal.readNat? 10 a with
    | some n => ({ s with status := n % 256 }, .exit)
    | none => ({ s.complain (Str.ofAscii "exit: Illegal number: " ++ a) with status := 2 }, .exit)

/-- Drops arguments at the front. -/
def shift (s : State) (args : List Str) : State × Flow :=
  let n := ((args.head?).bind (Decimal.readNat? 10)).getD 1
  if s.args.length < n then
    ({ s.complain (Str.ofAscii "shift: can\x27t shift that many") with status := 2 }, .exit)
  else { s with args := s.args.drop n }.done 0

/-- Sets the arguments. -/
def setArgs (s : State) (args : List Str) : State × Flow :=
  match args with
  | ['-', '-'] :: r => { s with args := r }.done 0
  | ('-' :: _) :: _ => s.done 0
  | [] => s.done 0
  | r => { s with args := r }.done 0

/-- Declares variables. -/
def declare (s : State) (args : List Str) : State × Flow :=
  (args.foldl (fun s a =>
    match Text.breakOn '=' a with
    | some (name, value) => s.assign name value
    | none => s) s).done 0

/-! ## All -/

/-- What a command that the shell brings along does. -/
def builtin? (name : Str) : Option (State → List Str → State × Flow) :=
  match String.ofList name with
  | "echo" => some fun s args => (s.say (echo args)).done 0
  | "printf" => some printf
  | "test" => some test
  | "[" => some fun s args =>
    if args.getLast? = some [']'] then test s args.dropLast
    else s.fail 2 (Str.ofAscii "[: missing ]")
  | ":" | "true" | "wait" | "trap" | "cd" | "umask" | "unset" => some fun s _ => s.done 0
  | "false" => some fun s _ => s.done 1
  | "exit" => some exit
  | "shift" => some shift
  | "set" => some setArgs
  | "export" | "readonly" | "local" => some declare
  | "read" => some readLine
  | "kill" => some kill
  | "return" => some exit
  | "break" => some fun s _ => ({ s with status := 0 }, .leave)
  | "continue" => some fun s _ => ({ s with status := 0 }, .skip)
  | _ => none

end Scaffold.Shell
