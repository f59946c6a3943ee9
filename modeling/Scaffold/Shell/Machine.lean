import Scaffold.Disk.Basic
import Scaffold.Shell.Word

/-!
# `Scaffold.Shell.Machine` — the machine that commands run on

Only three programs can be started. The other places that are always there are known too, because a
command that names one of them fails in its own way.

## Contents
- **Places.** `programs`, `machine`.
- **Starting.** `programAt`: the program that a path leads to, or what is in the way.
-/

namespace Scaffold.Shell

open Disk (Errno)

/-! ## Places -/

/-- The programs that can be started. -/
def programs : List String := ["/bin/cat", "/bin/sleep", "/bin/sh"]

/-- The directory in which commands run. Nothing is in it. -/
def home : Disk.Path := ["home", "work"]

/-- The directories that are always there. -/
def commonDirectories : List Disk.Path :=
  [["bin"], ["dev"], ["etc"], ["home"], home, ["lib"], ["opt"], ["proc"], ["root"], ["sbin"],
    ["sys"], ["tmp"], ["usr"], ["usr", "bin"], ["var"]]

/-- The files that are always there, none of them a program. -/
def commonFiles : List Disk.Path := [["dev", "null"], ["etc", "passwd"]]

/-- What is always there. -/
def machine : Disk :=
  ⟨commonDirectories.map (fun p => (p, .directory)) ++
    (commonFiles ++ programs.map Disk.partsOf).map fun p => (p, .file [])⟩

/-! ## Starting -/

/-- A path that ends like this can lead only to a directory. -/
def endsAsDirectory (path : String) : Bool :=
  match path.toList.reverse with
  | '/' :: _ => true
  | '.' :: '/' :: _ => true
  | _ => false

/-- The place that a path leads to. -/
def placeAt (path : String) : Except Errno Disk.Path := do
  if Disk.pathLimit ≤ path.utf8ByteSize then .error .nameTooLong
  let place ← machine.locate true (Disk.Path.join home path)
  match machine.find? place with
  | none => .error .missing
  | some .directory => return place
  | some _ => if endsAsDirectory path then .error .notDirectory else return place

/-- The program that a path leads to. A path without a slash names no program, and a place that is
    no program must not be started. -/
def programAt (path : String) : Except Errno String := do
  let place ← placeAt path
  if !path.toList.contains '/' then .error .missing
  match programs.find? fun p => Disk.partsOf p = place with
  | some program => return program
  | none => .error .forbidden

/-- What a path leads to, if anything is there. -/
def entryAt? (path : String) : Option Entry := (placeAt path).toOption.bind machine.find?

end Scaffold.Shell
