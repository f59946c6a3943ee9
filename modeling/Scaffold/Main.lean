import Scaffold.CommandLine.Program
import Scaffold.CommandLine.Usage

/-!
# `Scaffold.Main` — the program

The outer layer reads from the file system what a run looks at, and afterwards makes the changes
that came of it. Everything else is decided by `CommandLine.serve`.

A run tells which places it looks at by the entries that it would make. So the disk is read in
rounds: what was found at those places is added to it, and the run is taken again, until nothing
more is found.

## Contents
- **Reading.** `entryAt`, `look`, `lookAll`.
- **Running.** `messageLine`, `settle`, `carryOut`, `serve`.
-/

namespace Scaffold.Main

open CommandLine (ProgramRun Request)
open Disk (Path partsOf)
open Generation (Workspace)

/-! ## Reading -/

/-- What is at a path whose directory is given without links. -/
def entryAt (p : Path) : IO (Option Entry) := do
  let real? ← try pure (some (partsOf (toString (← IO.FS.realPath p.text)))) catch _ => pure none
  match real? with
  | none => return none
  | some real =>
    if real ≠ p then return some (.link (Path.text real))
    let isDirectory ←
      try
        let _ ← IO.FS.realPath (p.text ++ "/.")
        pure true
      catch _ => pure false
    if isDirectory then return some .directory
    return some (.file (← IO.FS.readBinFile p.text).toList)

/-- Adds what is on the way from `here` along `rest` to the disk. -/
partial def look (d : Disk) (here : Path) (rest : List String) : IO Disk := do
  match rest with
  | [] => return d
  | name :: rest =>
    if name = ".." then look d here.dropLast rest
    else
      let there := here ++ [name]
      match ← entryAt there with
      | none => return d
      | some (.link target) => look (d.put there (.link target)) [] (partsOf target ++ rest)
      | some e => look (d.put there e) there rest

/-- Adds what is on the way to some paths to the disk. -/
def lookAll (d : Disk) (paths : List Path) : IO Disk :=
  paths.foldlM (fun d p => look d [] p) d

/-! ## Running -/

/-- The line that shows a message. -/
def messageLine (e : Log.Entry) : String :=
  let gap := String.ofList (List.replicate (8 - e.level.name.length) ' ')
  s!"{e.level.name}{gap} │ {e.source.name} │ {e.text}\n"

/-- Takes a run again with what is found at the places that it looks at, until it looks at nothing
    new. -/
partial def settle (w : Workspace) (q : Request) (schema : Value) : IO (Disk × ProgramRun) := do
  let r := CommandLine.serve w q schema
  let d ← lookAll w.disk ((w.disk.changesFrom r.disk).map (·.1))
  if d.entries.length = w.disk.entries.length then return (w.disk, r)
  settle { w with disk := d } q schema

/-- Makes a change. -/
def carryOut : Path × Entry → IO Unit
  | (p, .directory) => IO.FS.createDir p.text
  | (p, .file bytes) => IO.FS.writeBinFile p.text ⟨bytes.toArray⟩
  | (_, .link _) => pure ()

/-- Serves a request about a schema file, and gives the status. -/
def serve (q : Request) (schema : Value) : IO UInt32 := do
  let here := partsOf (toString (← IO.currentDir))
  let d ← lookAll ⟨[]⟩ [here, Path.join here (schema.text?.getD "")]
  let (before, r) ← settle ⟨d, here, "\n"⟩ q schema
  (before.changesFrom r.disk).forM carryOut
  for e in CommandLine.shownAt (CommandLine.levelOf q) r.log do
    IO.eprint (messageLine e)
  IO.print r.printed
  match r.result with
  | .ok status => return status.code.toUInt32
  | .error f =>
    IO.eprintln s!"{f.label}: {f.message}"
    return 1

end Scaffold.Main

/-- Runs the program on its arguments. -/
def main (args : List String) : IO UInt32 := do
  match Scaffold.CommandLine.read args with
  | .error (.told .help) => IO.print Scaffold.CommandLine.usageText; return 0
  | .error (.told .version) =>
    IO.print (Scaffold.CommandLine.noticeText .version)
    return 0
  | .error .usage =>
    IO.eprint Scaffold.CommandLine.usageText
    return Scaffold.CommandLine.Status.input.code.toUInt32
  | .ok (q, schema) =>
    try Scaffold.Main.serve q schema
    catch e =>
      IO.eprintln s!"I/O error: {e}"
      return Scaffold.CommandLine.Status.system.code.toUInt32
