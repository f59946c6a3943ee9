import Scaffold.CommandLine.Run
import Scaffold.Shell.Run

/-!
# `Scaffold.CommandLine.Program` — the program on a machine with a shell

The program starts the formatter that it is told to. Here the commands are those of a small shell, which
waits for nothing: it tells how long a command would have waited, and that is set against the time that
the command was given.

## Contents
- **Time.** `leastTime`, `isTooLong`.
- **Commands.** `Finished.ofResult`, `Machine.shell`.
-/

namespace Scaffold

open Decimal (Binary64)

/-! ## Time -/

/-- The shortest time in which a command can end, in seconds. -/
def leastTime : Binary64 := .ofDecimal false 1 (-3)

/-- A command that waited for `waited` seconds is stopped before it ends. -/
def isTooLong (waited : Binary64) : Option Binary64 → Bool
  | none => false
  | some timeout => (timeout.add (waited.add leastTime).negate).isNegative

/-! ## Commands -/

/-- What came of a command that was given some time. -/
def Finished.ofResult (r : Shell.Result) (timeout : Option Binary64) : Finished :=
  if isTooLong r.waited timeout then .tooLate
  else
    match r.ending with
    | .exited n => .exited n r.output r.errors
    | .killed n => .exited (-(n : Int)) r.output r.errors
    | .never => .tooLate

/-- The machine whose commands are those of the shell. -/
instance Machine.shell : Machine where
  execute program args input timeout :=
    (Shell.execute program args input).map fun r => .ofResult r timeout

end Scaffold
