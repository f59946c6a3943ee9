import Scaffold.CommandLine.Reader
import Scaffold.Generation.Generate

/-!
# `Scaffold.CommandLine.Run` — the program as a function

The program reads its arguments, generates from the schema file, and tells how it went by what it
prints, by its messages and by a status.

## Contents
- **Status.** `Status`.
- **Messages.** `levelOf`, `shownAt`.
- **Runs.** `ProgramRun`, `runProgram`.
-/

namespace Scaffold.CommandLine

open Generation (Area Fault Outcome Workspace)

/-! ## Status -/

/-- How the program ends. -/
inductive Status
  | success
  | configuration
  | template
  | system
  | input
  deriving DecidableEq, Repr

/-- The number of a status. -/
def Status.code : Status → Nat
  | .success => 0
  | .configuration => 1
  | .template => 2
  | .system => 3
  | .input => 4

/-! ## Messages -/

/-- How grave messages are, as a number. -/
def weight : Log.Level → Nat
  | .info => 0
  | .warning => 1
  | .error => 2

/-- The least grave messages that are asked for. -/
def levelOf (q : Request) : Log.Level :=
  if q.quiet then .error else if q.verbose = 0 then .warning else .info

/-- The messages that are shown at a level. -/
def shownAt (level : Log.Level) (log : List Log.Entry) : List Log.Entry :=
  log.filter fun e => decide (weight level ≤ weight e.level)

/-- A message of the program itself. -/
def note (level : Log.Level) (text : String) : Log.Entry := ⟨level, .program, text⟩

/-! ## Runs -/

/-- What came of running the program. A fault that nothing expects takes the place of a status. -/
structure ProgramRun where
  disk : Disk
  log : List Log.Entry
  printed : String
  result : Except Fault Status

/-- The status for a fault, with the message about it. -/
def statusOf (f : Fault) : Option (Status × Log.Entry) :=
  match f.area with
  | .configuration => some (.configuration, note .error ("Configuration error: " ++ f.message))
  | .template => some (.template, note .error s!"Template error: {f.label}: {f.message}")
  | .system => some (.system, note .error ("I/O error: " ++ f.message))
  | .unexpected => none

/-- The last message. -/
def closingNote : Status → Log.Entry
  | .success => note .info "Generation completed successfully."
  | s => note .error s!"Generation failed with exit code {Decimal.digitsOf s.code}."

/-- The path that a value names, as it is seen from the directory of a run. -/
def placeOf (w : Workspace) (v : Value) : Except Fault Disk.Path := do
  (w.disk.resolve w.here (← Generation.pathText v)).mapError .place

/-- The messages about what the program works on. -/
def openingNotes (w : Workspace) (schema : Disk.Path) (results : Option Value) :
    Except Fault (List Log.Entry) :=
  let first := note .info ("Schema:  " ++ schema.text)
  match results with
  | none => .ok [first]
  | some v => (placeOf w v).map fun p => [first, note .info ("Output:  " ++ p.text)]

/-- Generates from the schema file at a path, and tells how it went. -/
def generateAt (w : Workspace) (q : Request) (schema : Disk.Path) : ProgramRun :=
  let o := Generation.generateFile w none (.ofPath schema) q.overrides
  match o.result with
  | .ok report =>
    ⟨o.disk, o.log ++ [closingNote .success], report.summary ++ "\n", .ok .success⟩
  | .error f =>
    match statusOf f with
    | none => ⟨o.disk, o.log, "", .error f⟩
    | some (s, n) => ⟨o.disk, o.log ++ [n, closingNote s], "", .ok s⟩

/-- What the program does for a request about a schema file, all messages included. -/
def serve (w : Workspace) (q : Request) (schema : Value) : ProgramRun :=
  let failed (log : List Log.Entry) (f : Fault) : ProgramRun := ⟨w.disk, log, "", .error f⟩
  let refused (text : String) : ProgramRun := ⟨w.disk, [note .error text], "", .ok .input⟩
  match placeOf w schema with
  | .error f => failed [] f
  | .ok path =>
    match w.disk.status? path path.text with
    | .error f => failed [] (.place f)
    | .ok none => refused ("Schema file not found: " ++ path.text)
    | .ok (some (.file _)) =>
      match openingNotes w path q.results? with
      | .error f => failed [note .info ("Schema:  " ++ path.text)] f
      | .ok notes =>
        let r := generateAt w q path
        { r with log := notes ++ r.log }
    | .ok (some _) => refused ("Schema path is not a file: " ++ path.text)

/-- The name of the program and its version. -/
def versionText : String := "nestgen v0.1.0"

/-- What the program prints when it is asked to tell something. How it is used is told by the outer
    layer, which knows the width of the screen. -/
def noticeText : Notice → String
  | .help => ""
  | .version => versionText ++ "\n"

/-- What the program does with its arguments. -/
def runProgram (w : Workspace) (args : List String) : ProgramRun :=
  match read args with
  | .error (.told what) => ⟨w.disk, [], noticeText what, .ok .success⟩
  | .error .usage => ⟨w.disk, [], "", .ok .input⟩
  | .ok (q, schema) =>
    let r := serve w q schema
    { r with log := shownAt (levelOf q) r.log }

end Scaffold.CommandLine
