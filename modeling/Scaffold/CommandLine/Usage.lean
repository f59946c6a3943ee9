import Scaffold.CommandLine.Flag

/-!
# `Scaffold.CommandLine.Usage` — how the program is called

## Contents
- **Options.** `Accept.shown`, `Effect.valueName?`, `Flag.shown`.
- **The text.** `usageText`.
-/

namespace Scaffold.CommandLine

/-- What stands for a value in the text about an option. -/
def Accept.shown : Accept → String
  | .anything => "TEXT"
  | .number => "SECONDS"
  | .oneOf names => "\x7b" ++ Text.joinWith "," names ++ "\x7d"

/-- What stands for the value of an option, if it takes one. -/
def Effect.valueName? : Effect → Option String
  | .schema => some "PATH"
  | .set _ accept => some accept.shown
  | _ => none

/-- An option with its spellings and its value. -/
def Flag.shown (f : Flag) : String :=
  let value := match f.effect.valueName? with
    | some name => " " ++ name
    | none => ""
  Text.joinWith ", " f.spellings ++ value

/-- How the program is called: a line for the whole, and a line for each option. -/
def usageText : String :=
  "usage: nestgen -s PATH [options]\n\noptions:\n" ++
    String.join (Flag.all.map fun f => s!"  {f.shown}\n")

end Scaffold.CommandLine
