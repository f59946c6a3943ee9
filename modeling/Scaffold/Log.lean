/-!
# `Scaffold.Log` — messages of a run

## Contents
- **Messages.** `Log.Level`, `Log.Source`, `Log.Entry`.
-/

namespace Scaffold.Log

/-- How grave a message is. -/
inductive Level
  | info
  | warning
  | error
  deriving DecidableEq, Repr

/-- The name of a level. -/
def Level.name : Level → String
  | .info => "INFO"
  | .warning => "WARNING"
  | .error => "ERROR"

/-- The part of the program that a message comes from. -/
inductive Source
  | program
  | models
  | formatting
  | exporters
  | generator
  deriving DecidableEq, Repr

/-- The name of a source. -/
def Source.name : Source → String
  | .program => "nestgen"
  | .models => "nestgen.models"
  | .formatting => "nestgen.formatting"
  | .exporters => "nestgen.exporters"
  | .generator => "nestgen.generator"

/-- A message. -/
structure Entry where
  level : Level
  source : Source
  text : String
  deriving DecidableEq, Repr

end Scaffold.Log
