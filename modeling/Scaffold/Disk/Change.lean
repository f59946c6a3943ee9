import Scaffold.Disk.Basic

/-!
# `Scaffold.Disk.Change` — operations on a disk

## Contents
- **Reading.** `read`.
- **Directories.** `makeDirectory`, `ensureDirectory`, `ensureAll`.
- **Files.** `write`.
- **Comparing.** `changesFrom`.
-/

namespace Scaffold.Disk

/-- The bytes of the file that a path leads to. -/
def read (d : Disk) (p : Path) (shown : String) : Except Failure (List UInt8) :=
  match d.status p with
  | .ok (.file bytes) => .ok bytes
  | .ok _ => .error (.system .isDirectory shown)
  | .error e => .error (.system e shown)

/-- A new directory. Nothing may be there yet, and the directory above has to exist. -/
def makeOne (d : Disk) (p : Path) : Except Errno Disk := do
  let q ← d.locate false p
  match d.find? q with
  | some _ => .error .exists
  | none => return d.put q .directory

/-- The outcome of a change that did not work out: a directory that is there already is as good as
    a new one. -/
def alreadyThere (d : Disk) (p : Path) (e : Errno) : Option Failure :=
  match d.isDirectory p with
  | .ok true => none
  | .ok false => some (.system e p.text)
  | .error f => some f

/-- A directory, with those above it made first where they are missing; a directory that is there
    already is fine. What was made before a failure stays. `fuel` bounds the directories above. -/
def makeDirectory : (fuel : Nat) → Disk → Path → Disk × Option Failure
  | fuel, d, p =>
    match d.makeOne p with
    | .ok d => (d, none)
    | .error e =>
      match fuel, e with
      | n + 1, .missing =>
        match makeDirectory n d p.parent with
        | (d, some f) => (d, some f)
        | (d, none) =>
          match d.makeOne p with
          | .ok d => (d, none)
          | .error e => (d, alreadyThere d p e)
      | _, e => (d, alreadyThere d p e)

/-- Makes a directory unless it is there. The flag tells whether it was made. -/
def ensureDirectory (d : Disk) (p : Path) : Disk × Except Failure Bool :=
  match d.isDirectory p with
  | .error f => (d, .error f)
  | .ok true => (d, .ok false)
  | .ok false =>
    match makeDirectory p.length d p with
    | (d, none) => (d, .ok true)
    | (d, some f) => (d, .error f)

/-- Makes those of some directories that are not there, and tells which. -/
def ensureAll (d : Disk) : List Path → Disk × Except Failure (List Path)
  | [] => (d, .ok [])
  | p :: r =>
    match d.ensureDirectory p with
    | (d, .error f) => (d, .error f)
    | (d, .ok made) =>
      let (d, rest) := ensureAll d r
      (d, rest.map fun ps => if made then p :: ps else ps)

/-- Writes a file in place of what it held before. -/
def write (d : Disk) (p : Path) (text : String) : Except Failure Disk :=
  if p.any fun s => s.toList.contains '\x00' then .error .nullByte
  else match d.locate true p with
    | .error e => .error (.system e p.text)
    | .ok q =>
      match d.find? q with
      | some .directory => .error (.system .isDirectory p.text)
      | _ => .ok (d.put q (.file (Text.Utf8.encode text)))

/-- The entries that are new or different since `before`. Changes put entries at the front, so the
    oldest change comes first. -/
def changesFrom (before after : Disk) : List (Path × Entry) :=
  (after.entries.filter fun (p, e) => before.find? p ≠ some e).reverse

end Scaffold.Disk
