import Scaffold.Decimal.Numeral
import Scaffold.Decimal.Shortest
import Scaffold.Shell.Word

/-!
# `Scaffold.Shell.State` — what a shell keeps while it runs

Everything that a script prints goes to a buffer. The buffers 1 and 2 are the output and the errors
of the whole run; others hold what one command passes to the next.

## Contents
- **States.** `State`, `Flow`.
- **Printing.** `State.print`, `State.say`, `State.complain`.
- **Parameters.** `State.parameter`, `State.assign`.
- **Fields.** `Fields`: the words that a word is split into.
-/

namespace Scaffold.Shell

open Decimal (Binary64 digitsOf)
open Text (isDigit)

/-! ## States -/

/-- What a shell keeps. `output` and `errors` are the buffers that the two channels lead to. -/
structure State where
  name : Str
  args : List Str
  bindings : List (Str × Str) := []
  input : Str
  buffers : List (Nat × Str) := []
  output : Nat := 1
  errors : Nat := 2
  status : Nat := 0
  waited : Binary64 := .zero false

/-- How a shell goes on after a command. -/
inductive Flow
  | next
  | leave
  | skip
  | exit
  | killed (signal : Nat)
  /-- The script does not end. -/
  | endless
  deriving DecidableEq, Repr

/-- The number of the process. -/
def processId : Str := Str.ofAscii "4242"

namespace State

/-- The state after a command with a status. -/
def done (s : State) (status : Nat) : State × Flow := ({ s with status }, .next)

/-- The status of an answer to a question. -/
def answer (s : State) (yes : Bool) : State × Flow := s.done (if yes then 0 else 1)

/-! ## Printing -/

/-- The buffer that takes what nobody reads. -/
def nowhere : Nat := 0

/-- What is in a buffer. -/
def buffer (s : State) (n : Nat) : Str := (s.buffers.lookup n).getD []

/-- Adds to a buffer. -/
def print (s : State) (n : Nat) (text : Str) : State :=
  if n = nowhere then s
  else { s with buffers := (n, s.buffer n ++ text) :: s.buffers.filter fun (m, _) => m ≠ n }

/-- Prints to the output. -/
def say (s : State) (text : Str) : State := s.print s.output text

/-- Prints a message of the shell. -/
def complain (s : State) (message : Str) : State :=
  s.print s.errors (s.name ++ Str.ofAscii ": 1: " ++ message ++ ['\n'])

/-- A message with a status. -/
def fail (s : State) (status : Nat) (message : Str) : State × Flow :=
  (s.complain message).done status

/-! ## Parameters -/

/-- The value of a parameter that is given by a plain name. -/
def named (s : State) (name : Str) : Option Str :=
  match name with
  | ['#'] => some (Str.ofAscii (digitsOf s.args.length))
  | ['?'] => some (Str.ofAscii (digitsOf s.status))
  | ['$'] => some processId
  | ['0'] => some s.name
  | ['@'] | ['*'] => some (([' '] : Str).intercalate s.args)
  | c :: r =>
    if (c :: r).all isDigit then s.args[(Decimal.natOf (c :: r)) - 1]?
    else s.bindings.lookup (c :: r)
  | [] => none

/-- The value of a parameter. A hash in front asks for its length, and a default can stand behind a
    dash, or behind a colon and a dash if an empty value shall not count. -/
def parameter (s : State) (name : Str) : Str :=
  match name with
  | '#' :: c :: r => Str.ofAscii (digitsOf ((s.named (c :: r)).getD []).length)
  | _ =>
    match Text.breakOn '-' name with
    | some (c :: before, default) =>
      if before.getLast? = some ':' then
        match s.named ((c :: before).dropLast) with
        | some (d :: v) => d :: v
        | _ => default
      else (s.named (c :: before)).getD default
    | _ => (s.named name).getD []

/-- Sets a variable. -/
def assign (s : State) (name value : Str) : State :=
  { s with bindings := (name, value) :: s.bindings.filter fun (n, _) => n ≠ name }

end State

/-! ## Fields -/

/-- The words that a word is split into so far; the last one may still grow. -/
structure Fields where
  complete : List Str := []
  current : Option Str := none

namespace Fields

/-- Adds text that is not split. -/
def add (f : Fields) (text : Str) : Fields := { f with current := some (f.current.getD [] ++ text) }

/-- Begins a new word. -/
def cut (f : Fields) : Fields := ⟨f.complete ++ f.current.toList, none⟩

/-- The characters between words. -/
def isSeparator (c : Char) : Bool := c = ' ' || c = '\t' || c = '\n'

/-- Adds text that is split at blanks. -/
def addSplit (f : Fields) (text : Str) : Fields :=
  text.foldl (fun f c => if isSeparator c then f.cut else f.add [c]) f

/-- Adds several words; the first goes on with the word before. -/
def addWords (f : Fields) : List Str → Fields
  | [] => f
  | [w] => f.add w
  | w :: v :: r => (f.add w).cut.addWords (v :: r)

/-- All words. -/
def words (f : Fields) : List Str := f.cut.complete

/-- The text of a word that is not split. -/
def joined (f : Fields) : Str := ([' '] : Str).intercalate f.words

end Fields

end Scaffold.Shell
