import Scaffold.Artifact
import Scaffold.Disk.Basic

/-!
# `Scaffold.Layout` — where the files of a run go

Each kind of file that is made per entity has a directory of its own below the root; the module lies
in the root and the index among the models. In a flat layout all files lie in the root.

## Contents
- **Directories.** `Layout`, `Layout.directory`, `Layout.subdirectories`, `Layout.resolve`.
- **Imports.** `Layout.importPrefix`, `Layout.importPrefixes`.
- **The module.** `moduleOf?`.
-/

namespace Scaffold

open Disk (Path)

/-- Where the files of a run go. -/
structure Layout where
  root : Path
  flat : Bool
  deriving DecidableEq, Repr

namespace Layout

/-! ## Directories -/

/-- The kinds of files that are made per entity. -/
def entityKinds : List Artifact := [.model, .dto, .service, .controller]

/-- The name of a kind's directory below the root; the module has none. -/
def subdirectory? : Artifact → Option String
  | .index => Artifact.model.directory?
  | a => a.directory?

/-- The directory of a kind. -/
def directory (l : Layout) (a : Artifact) : Path :=
  if l.flat then l.root
  else match subdirectory? a with
    | some name => l.root ++ [name]
    | none => l.root

/-- The directories below the root, each once, in the order of the kinds. -/
def subdirectories (l : Layout) : List Path :=
  (((Choice.all : List Artifact).map l.directory).filter (· ≠ l.root)).eraseDups

/-- The layout below the directory that a text names. -/
def resolve (d : Disk) (here : Path) (results : String) (flat : Bool) :
    Except Disk.Failure Layout :=
  (d.resolve here results).map fun root => ⟨root, flat⟩

/-! ## Imports -/

/-- The directory next to those of the kinds that holds what all files share. -/
def commonName : String := "common"

/-- The way from the files of one kind to those of another. -/
def importPrefix (l : Layout) (source target : Artifact) : String :=
  Path.moduleFrom (l.directory source) (l.directory target)

/-- The ways from the files of a kind, by the names of the directories they lead to. -/
def importPrefixes (l : Layout) (source : Artifact) : List (String × String) :=
  (entityKinds.filterMap fun a => a.directory?.map fun name => (name, l.importPrefix source a)) ++
    [(commonName, Path.moduleFrom (l.directory source) (l.root ++ [commonName]))]

end Layout

/-! ## The module -/

/-- The name of the module that is made in a directory: that of the directory. The root has none. -/
def moduleOf? (root : Path) : Option String :=
  if root.isEmpty then none else some root.name

end Scaffold
