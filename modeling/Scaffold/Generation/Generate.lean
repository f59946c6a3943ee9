import Scaffold.Generation.Fault
import Scaffold.Formatter.Command

/-!
# `Scaffold.Generation.Generate` — from entities to files

A run is prepared before anything is written: its conventions of naming are checked, and the place
for the results and the name of the module are found. Then its plan is followed.

## Contents
- **Surroundings.** `Workspace`, `Outcome`.
- **Preparing.** `prepare`, `ownFormatter`.
- **Generating.** `generate`.
- **Schema files.** `overrideOptions`, `generateFile`.
-/

namespace Scaffold.Generation

open Decimal (Binary64 digitsOf)
open Disk (Path)
open Naming (Policy)
open Schema (Entity Location Settings)

/-! ## Surroundings -/

/-- Where a run takes place: on a disk, in a directory, on a platform with a line ending, and on a
    machine with programs. -/
structure Workspace where
  disk : Disk
  here : Path
  platform : String
  [machine : Machine]

/-- What came of an undertaking: the disk, the messages, and a result or a fault. -/
structure Outcome (α : Type) where
  disk : Disk
  log : List Log.Entry
  result : Except Fault α

/-! ## Preparing -/

/-- The job of a run, if its settings allow one. -/
def prepare (w : Workspace) (es : List Entity) (s : Settings) : Except Fault Job := do
  let policy ← (Policy.ofRequest s.naming).mapError .policy
  let results ← pathText s.resultsPath
  let layout ← (Layout.resolve w.disk w.here results s.flat).mapError .place
  match moduleOf? layout.root with
  | none => throw (.noModule results)
  | some module =>
    return { policy, layout, module, entities := es, extension := s.extension.display, eol := s.eol,
             platform := w.platform, indexFile := s.indexFile }

/-- The formatter that the settings ask for. -/
def ownFormatter (w : Workspace) (s : Settings) : Formatter :=
  match s.formatter with
  | .none => Formatter.keep
  | .prettier => @Formatter.command w.machine ["prettier"] (some s.timeout)

/-! ## Generating -/

/-- The report of the step that makes the directories. -/
def directoryReport (made : List Path) : StepReport :=
  ⟨"Ensure Directories", true, .zero false, s!"{digitsOf made.length} created"⟩

/-- The messages at the end of a run. -/
def closingNotes (r : Report) : List Log.Entry :=
  (if r.unformatted.isEmpty then []
   else [⟨.warning, .generator,
     s!"Generation finished with {digitsOf r.unformatted.length} unformatted file(s)."⟩]) ++
  [⟨.info, .generator,
    s!"Generation complete: {digitsOf r.files.length} files for " ++
      s!"{Decimal.intText r.entities} entities in 0.000s."⟩]

/-- The report of a run that followed its plan to the end. -/
def reportOf (j : Job) (made : List Path) (c : Course) : Report where
  success := true
  module := j.module
  directory := j.layout.root.text
  entities := j.entities.length
  seconds := .zero false
  phases := [.start, .directories] ++ c.phases ++ [.done]
  steps := directoryReport made :: c.steps
  files := c.files
  unformatted := c.unformatted.map Unformatted.diagnostic

/-- Makes the directories of a job and follows its plan. -/
def Job.run (j : Job) (f : Formatter) (d : Disk) : Outcome Report :=
  match j.layout.ensure d (!j.layout.flat) with
  | (d, .error failure) =>
    let stop := Stop.directories failure
    ⟨d, stop.log .start, .error (.stopped stop)⟩
  | (d, .ok made) =>
    let c := follow f j.layout.root d .directories j.plan
    let log := j.layout.readyNote made :: c.log
    match c.stop with
    | some stop => ⟨c.disk, log, .error (.stopped stop)⟩
    | none =>
      let report := reportOf j made c
      ⟨c.disk, log ++ closingNotes report, .ok report⟩

/-- Generates the files of entities. A formatter that is given takes the place of the one that the
    settings ask for. -/
def generate (w : Workspace) (formatter : Option Formatter) (es : List Entity) (s : Settings) :
    Outcome Report :=
  match prepare w es s with
  | .error f => ⟨w.disk, [], .error f⟩
  | .ok job => job.run (formatter.getD (ownFormatter w s)) w.disk

/-! ## Schema files -/

/-- A document with options put over its own. Options that say nothing count as none. -/
def overrideOptions (doc : Entries) (given : List (String × Value)) :
    Except MappingFault Entries := do
  if given.isEmpty then return doc
  let (key, own) := (Schema.firstOf doc Schema.optionKeys).getD ("config", .null)
  let own ← if own.truthy then Entries.ofValue own else .ok []
  return doc.put (.text key) (.map (Schema.Options.override own given))

/-- The message that a schema file was loaded. -/
def loadedNote (l : Location) (es : List Entity) : Log.Entry :=
  ⟨.info, .generator,
   s!"Loaded schema file: {l.shown} ({digitsOf es.length} entities) in 0.000s."⟩

/-- The report of the step that loads a schema file. -/
def loadReport (l : Location) : StepReport :=
  ⟨"Load Schema File", true, .zero false, "from " ++ l.name⟩

/-- Generates the files of a schema file, with options put over those of the file. -/
def generateFile (w : Workspace) (formatter : Option Formatter) (l : Location)
    (given : List (String × Value)) : Outcome Report :=
  match Schema.load w.disk l with
  | (log, .error f) => ⟨w.disk, log, .error (.load f)⟩
  | (log, .ok doc) =>
    match overrideOptions doc given with
    | .error f => ⟨w.disk, log, .error (.overrides f)⟩
    | .ok doc =>
      let read := Schema.readDocument w.platform doc
      let log := log ++ read.log
      match read.result with
      | .error f => ⟨w.disk, log, .error (.document f)⟩
      | .ok (es, options) =>
        let o := generate w formatter es options.settings
        { o with
          log := log ++ loadedNote l es :: o.log
          result := o.result.map fun r => { r with steps := loadReport l :: r.steps } }

end Scaffold.Generation
