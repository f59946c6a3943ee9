import Scaffold.Generation.Plan

/-!
# `Scaffold.Generation.Run` — writing the files of a plan

A run formats and writes the drafts of its plan one after another. It stops at the first text that
cannot be rendered and at the first file that cannot be written; what was written stays.

## Contents
- **Stops.** `Stop`.
- **Files.** `Emission`, `emit`.
- **Steps.** `Course`, `follow`.
-/

namespace Scaffold.Generation

open Disk (Path)
open Source (RenderFault)

/-! ## Stops -/

/-- Why a run ended early. -/
inductive Stop
  | directories (failure : Disk.Failure)
  | render (fault : RenderFault)
  | write (fault : WriteFault)

/-- The areas that faults of a run belong to. -/
inductive Area
  | configuration
  | template
  | system
  /-- Faults that no part of the program expects. -/
  | unexpected
  deriving DecidableEq, Repr

/-- Failures of the file system are expected as far as it reports them itself. -/
def areaOfFailure : Disk.Failure → Area
  | .system _ _ => .system
  | _ => .unexpected

namespace Stop

/-- The area of a stop. -/
def area : Stop → Area
  | .directories f => areaOfFailure f
  | .render (.unwritable _) => .unexpected
  | .render (.noLineEnding _) => .unexpected
  | .render _ => .template
  | .write (.disk f) => areaOfFailure f
  | .write (.outside _ _) => .unexpected

/-- What messages call a stop. -/
def label : Stop → String
  | .directories f => f.label
  | .render (.unwritable cause) => cause.label
  | .render (.noLineEnding _) => "AttributeError"
  | .render _ => "UndefinedError"
  | .write f => f.label

/-- The words for a stop. -/
def message : Stop → String
  | .directories f => f.message
  | .render f => f.message
  | .write f => f.message

/-- The message about a run that ended early after a phase, unless nothing expected the reason. -/
def log (s : Stop) (reached : Phase) : List Log.Entry :=
  match s.area with
  | .unexpected => []
  | _ =>
    [⟨.error, .generator,
      s!"Generation aborted after phase '{Choice.name reached}': {s.label}: {s.message}"⟩]

end Stop

/-! ## Files -/

/-- What came of some drafts: the disk, the files written, those left unformatted, and why it ended
    early. -/
structure Emission where
  disk : Disk
  files : List FileRecord
  unformatted : List Unformatted
  stop : Option Stop

/-- Formats and writes drafts one after another. -/
def emit (f : Formatter) (root : Path) (d : Disk) : List Draft → Emission
  | [] => ⟨d, [], [], none⟩
  | x :: r =>
    match x.text with
    | .error fault => ⟨d, [], [], some (.render fault)⟩
    | .ok text =>
      let (text, unformatted) := f.apply text x.source x.parser
      match writeBelow d root x.directory x.name text with
      | (d, .error fault) => ⟨d, [], unformatted.toList, some (.write fault)⟩
      | (d, .ok record) =>
        let rest := emit f root d r
        { rest with
          files := record :: rest.files
          unformatted := unformatted.toList ++ rest.unformatted }

/-! ## Steps -/

/-- What came of some steps. -/
structure Course where
  disk : Disk
  log : List Log.Entry
  phases : List Phase
  steps : List StepReport
  files : List FileRecord
  unformatted : List Unformatted
  stop : Option Stop

/-- Takes steps one after another, from a phase on that was reached before. -/
def follow (f : Formatter) (root : Path) (d : Disk) (reached : Phase) : List Step → Course
  | [] => ⟨d, [], [], [], [], [], none⟩
  | s :: r =>
    let e := emit f root d s.drafts
    let complaints := e.unformatted.flatMap Unformatted.log
    match e.stop with
    | some stop =>
      ⟨e.disk, complaints ++ stop.log reached, [], [], e.files, e.unformatted, some stop⟩
    | none =>
      let rest := follow f root e.disk s.phase r
      { rest with
        log := complaints ++ s.log e.files.length ++ rest.log
        phases := s.phase :: rest.phases
        steps := s.report e.files.length e.unformatted.length :: rest.steps
        files := e.files ++ rest.files
        unformatted := e.unformatted ++ rest.unformatted }

end Scaffold.Generation
