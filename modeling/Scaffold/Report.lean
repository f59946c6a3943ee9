import Scaffold.Choice
import Scaffold.Formatter
import Scaffold.Output

/-!
# `Scaffold.Report` — what a run tells about itself

## Contents
- **Phases.** `Phase`, in the order in which a run reaches them.
- **Reports.** `StepReport`, `Report`, with the sums over the files.
- **Summary.** `Report.summary`: the report as text.
-/

namespace Scaffold

open Decimal (Binary64 digitsOf intText fixedText grouped)
open Text (padLeft padRight rule)

/-! ## Phases -/

/-- The points that a run passes. -/
inductive Phase
  | start
  | directories
  | index
  | models
  | services
  | controllers
  | module
  | dtos
  | project
  | done
  deriving DecidableEq, Repr

instance : Choice Phase where
  all := [.start, .directories, .index, .models, .services, .controllers, .module, .dtos,
    .project, .done]
  name
    | .start => "init"
    | .directories => "directories_ensured"
    | .index => "indexed"
    | .models => "models_emitted"
    | .services => "services_emitted"
    | .controllers => "controllers_emitted"
    | .module => "modules_emitted"
    | .dtos => "dtos_emitted"
    | .project => "configs_emitted"
    | .done => "done"
  label := "GenerationPhase"

/-! ## Reports -/

/-- How a step of a run went. -/
structure StepReport where
  title : String
  success : Bool
  seconds : Binary64
  detail : String
  deriving Repr

/-- What a run tells about itself. Phases, steps and files stand in the order of the run. -/
structure Report where
  success : Bool
  module : String
  directory : String
  entities : Int
  seconds : Binary64
  phases : List Phase
  steps : List StepReport
  files : List FileRecord
  unformatted : List String
  deriving Repr

namespace Report

/-- The last phase that was reached. -/
def phase (r : Report) : Phase := r.phases.getLastD .start

/-- The size of all files. -/
def totalSize (r : Report) : Nat := r.files.foldr (fun f n => f.size + n) 0

/-- The lines of all files. -/
def totalLines (r : Report) : Nat := r.files.foldr (fun f n => f.lines + n) 0

/-! ## Summary -/

/-- A line that sets off the report. -/
def doubleRule : String := rule 60 '='

/-- A line that sets off a part of the report. -/
def singleRule : String := rule 60 '─'

/-- The lines about the run as a whole. -/
def headLines (r : Report) : List String :=
  [doubleRule,
   "  nestgen - Generation Report",
   doubleRule,
   "  Status:           " ++ (if r.success then "✅ SUCCESS" else "❌ FAILED"),
   "  Module:           " ++ r.module,
   "  Output:           " ++ r.directory,
   "  Entities:         " ++ intText r.entities,
   "  Files generated:  " ++ digitsOf r.files.length,
   "  Total lines:      " ++ grouped r.totalLines,
   "  Total bytes:      " ++ grouped r.totalSize,
   "  Total time:       " ++ fixedText 3 r.seconds ++ "s",
   singleRule]

/-- The line about a step. -/
def stepLine (s : StepReport) : String :=
  "    " ++ (if s.success then "✓" else "✗") ++ " " ++ padRight 28 s.title ++ " " ++
    padLeft 7 (fixedText 3 s.seconds) ++ "s  " ++ s.detail

/-- The lines about the steps. -/
def stepLines (r : Report) : List String :=
  if r.steps.isEmpty then [] else "  Pipeline Steps:" :: r.steps.map stepLine

/-- The lines about files that are not formatted. -/
def unformattedLines (r : Report) : List String :=
  if r.unformatted.isEmpty then []
  else
    singleRule :: s!"  Formatting Errors ({digitsOf r.unformatted.length}):" ::
      r.unformatted.map ("    ✗ " ++ ·)

/-- The report as text. -/
def summary (r : Report) : String :=
  Text.joinWith "\n" (r.headLines ++ r.stepLines ++ r.unformattedLines ++ [doubleRule])

end Report

end Scaffold
