import Scaffold.Digest
import Scaffold.Disk.Change
import Scaffold.Layout
import Scaffold.Log
import Scaffold.Text.Lines

/-!
# `Scaffold.Output` — writing the files of a run

Files are written over what was there. Of every file written a record is kept.

## Contents
- **Records.** `FileRecord`.
- **Writing.** `WriteFault`, `writeBelow`.
- **Directories.** `Layout.ensure`.
-/

namespace Scaffold

open Decimal (digitsOf)
open Disk (Path)

/-- What is known of a file that was written. -/
structure FileRecord where
  relative : String
  place : Path
  size : Nat
  lines : Nat
  digest : String
  deriving DecidableEq, Repr

/-! ## Writing -/

/-- Why a file was not recorded. -/
inductive WriteFault
  | disk (failure : Disk.Failure)
  /-- The file was written, but it does not lie below the root. -/
  | outside (target root : Path)
  deriving DecidableEq, Repr

namespace WriteFault

/-- What messages call a fault. -/
def label : WriteFault → String
  | .disk f => f.label
  | .outside _ _ => "ValueError"

/-- The words for a fault. -/
def message : WriteFault → String
  | .disk f => f.message
  | .outside target root =>
    s!"{quoted target.text} is not in the subpath of {quoted root.text} " ++
      "OR one path is relative and the other is absolute."

end WriteFault

/-- The record of a text written to `target`, if that is below the root. -/
def recordOf (root target : Path) (text : String) : Except WriteFault FileRecord :=
  match Path.below? root target with
  | none => .error (.outside target root)
  | some way =>
    .ok ⟨Disk.shownPath way.joined, target, text.utf8ByteSize, Text.lineCount text, Digest.sha256 text⟩

/-- Writes a text to the file `name` of a directory, and records it below the root. -/
def writeBelow (d : Disk) (root directory : Path) (name text : String) :
    Disk × Except WriteFault FileRecord :=
  let target := directory.join name
  match d.write target text with
  | .error f => (d, .error (.disk f))
  | .ok d => (d, recordOf root target text)

/-! ## Directories -/

/-- The directories of a layout, the root first; those below it only if they are asked for. -/
def Layout.targets (l : Layout) (all : Bool) : List Path :=
  l.root :: (if all then l.subdirectories else [])

/-- Makes the directories of a layout, and tells which were made. -/
def Layout.ensure (l : Layout) (d : Disk) (all : Bool) : Disk × Except Disk.Failure (List Path) :=
  d.ensureAll (l.targets all)

/-- The message that the directories are there. -/
def Layout.readyNote (l : Layout) (made : List Path) : Log.Entry :=
  ⟨.info, .exporters,
   s!"Output directories ready under {l.root.text} ({digitsOf made.length} created)."⟩

end Scaffold
