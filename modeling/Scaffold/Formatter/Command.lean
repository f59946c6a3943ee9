import Scaffold.Disk.Basic
import Scaffold.Formatter
import Scaffold.Text.Utf8
import Scaffold.Value.Display

/-!
# `Scaffold.Formatter.Command` — formatting by a command

A command gets the text as its input, and the language of the text as an argument. What it prints is
the formatted text, unless it fails. What programs there are, and what they do, is up to the machine
that a run takes place on.

## Contents
- **Machines.** `Finished`, `Machine`, `Machine.bare`.
- **Arguments.** `formatterArgs`.
- **Complaints.** `Formatter.notFound` and the others.
- **Formatting.** `Formatter.unwaitable?`, `Formatter.conclude`, `Formatter.command`.
-/

namespace Scaffold

open Decimal (Binary64 digitsOf generalText)

/-! ## Machines -/

/-- What came of a program that was started. -/
inductive Finished
  /-- It ended with a status, after it had printed an output and errors. A signal that ended it counts
      as a status below zero. -/
  | exited (status : Int) (output errors : List UInt8)
  /-- It went on for longer than there was time. -/
  | tooLate

/-- What comes of the programs that are started: how they end on their arguments and their input if they
    are waited for some seconds at most, or why they cannot be started. -/
class Machine where
  execute (program : String) (args : List String) (input : List UInt8) (timeout : Option Binary64) :
    Except Disk.Errno Finished

/-- A machine without any program. -/
@[reducible] def Machine.bare : Machine := ⟨fun _ _ _ _ => .error .missing⟩

/-! ## Arguments -/

/-- The arguments that say what is to be formatted. -/
def formatterArgs (parser : String) : List String := ["--parser", parser, "--end-of-line", "auto"]

namespace Formatter

/-! ## Complaints -/

/-- There is no such program. -/
def notFound (program : String) : Complaint := .rejected (program ++ " executable not found") ""

/-- The program is there, but cannot be started. -/
def unable (program : String) (e : Disk.Errno) : Complaint :=
  .rejected (program ++ " could not run: " ++ (Disk.Failure.system e program).message) ""

/-- The program took too long. -/
def timedOut (program : String) (timeout : Binary64) : Complaint :=
  .rejected (program ++ " timed out after " ++ generalText timeout ++ "s") ""

/-- The program failed; a signal counts as a status below zero. -/
def failed (program : String) (status : Int) (errors : List UInt8) : Complaint :=
  .rejected (program ++ " exited with status " ++ Decimal.intText status)
    (Text.Utf8.decodeReplacing errors)

/-! ## Formatting -/

/-- `x` is greater than `limit`. -/
def exceeds (x limit : Binary64) : Bool := (limit.add x.negate).isNegative

/-- Why nothing can be waited for that long: waiting counts in whole milliseconds, at most
    2147483647, and the clock in nanoseconds, in 64 bits. -/
def unwaitable? (timeout : Binary64) : Option Complaint :=
  match timeout with
  | .nan => some (.broken "ValueError" "cannot convert float NaN to integer")
  | .infinite true => none
  | x =>
    if x.mul (.ofInt 1000) = .infinite false then
      some (.broken "OverflowError" "cannot convert float infinity to integer")
    else if exceeds x (.ofDecimal false 9223372036854 (-3)) then
      some (.broken "OverflowError" "timestamp too large to convert to C _PyTime_t")
    else if exceeds x (.ofDecimal false 2147483647 (-3)) then
      some (.broken "OverflowError" "timeout is too large")
    else none

/-- What a command that ended tells about the text. -/
def conclude (program : String) (status : Int) (output errors : List UInt8) :
    Except Complaint String :=
  if status = 0 then
    match Text.Utf8.decode output with
    | .ok text => .ok text
    | .error fault => .error (.broken "UnicodeDecodeError" fault.message)
  else .error (failed program status errors)

/-- The formatter that passes a text through a command. -/
def command [Machine] (words : List String) (timeout : Option Binary64) : Formatter :=
  fun code parser =>
    match words with
    | [] => .error (.broken "IndexError" "list index out of range")
    | program :: args =>
      if (parser :: words).any fun w => w.toList.contains '\x00' then
        .error (.broken "ValueError" "embedded null byte")
      else
        match Machine.execute program (args ++ formatterArgs parser) (Text.Utf8.encode code) timeout with
        | .error .missing => .error (notFound program)
        | .error e => .error (unable program e)
        | .ok finished =>
          if let some complaint := timeout.bind unwaitable? then .error complaint
          else
            match finished with
            | .tooLate => .error (timedOut program (timeout.getD (.infinite false)))
            | .exited status output errors => conclude program status output errors

end Formatter

end Scaffold
