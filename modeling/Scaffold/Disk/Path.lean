import Scaffold.Text.Basic

/-!
# `Scaffold.Disk.Path` — absolute paths

A path is the list of its parts from the root on. Empty parts and single points do not count; two
points stand for the directory above.

## Contents
- **Paths.** `Path`, `Path.text`, `Path.name`, `Path.parent`, `Path.suffix`.
- **Reading.** `partsOf`, `isAbsolute`, `shownPath`, `Path.join`.
- **Normal form.** `Path.normal`.
- **From one to another.** `Path.wayFrom`, `Path.moduleFrom`, `Path.below?`.
-/

namespace Scaffold.Disk

/-- The parts of an absolute path. -/
abbrev Path := List String

/-- The parts of a path that count. -/
def partsOf (text : String) : List String :=
  ((Text.splitOn '/' text.toList).filter fun s => s ≠ [] && s ≠ ['.']).map String.ofList

/-- The path begins at the root. -/
def isAbsolute (text : String) : Bool := text.toList.head? = some '/'

/-- A path as messages show it: only the parts that count, or a single point. -/
def shownPath (text : String) : String :=
  let parts := Text.joinWith "/" (partsOf text)
  if isAbsolute text then "/" ++ parts else if parts = "" then "." else parts

namespace Path

/-- Parts with slashes between them. -/
def joined (p : Path) : String := Text.joinWith "/" p

/-- The path as it is written. -/
def text (p : Path) : String := "/" ++ joined p

/-- The last part, nothing for the root. -/
def name (p : Path) : String := p.getLast?.getD ""

/-- The directory that the path lies in. -/
def parent (p : Path) : Path := p.dropLast

/-- Goes on from a path as a text says. An absolute text starts anew. -/
def join (p : Path) (text : String) : Path :=
  if isAbsolute text then partsOf text else p ++ partsOf text

/-- The end of a file name from its last point on, unless that is its first or last character. -/
def suffixOf (name : String) : String :=
  let back := name.toList.reverse
  let ext := back.takeWhile (· ≠ '.')
  match back.dropWhile (· ≠ '.') with
  | '.' :: front => if ext.isEmpty || front.isEmpty then "" else String.ofList ('.' :: ext.reverse)
  | _ => ""

/-! ## Normal form -/

/-- Two points undo the part before them; above the root there is nothing. -/
def normalFrom (done : Path) : List String → Path
  | [] => done
  | s :: r => if s = ".." then normalFrom done.dropLast r else normalFrom (done ++ [s]) r

/-- The path without two points. -/
def normal (p : Path) : Path := normalFrom [] p

/-! ## From one path to another -/

/-- What is left of two paths after their common front. -/
def split : Path → Path → Path × Path
  | a :: p, b :: q => if a = b then split p q else (a :: p, b :: q)
  | p, q => (p, q)

/-- The way from `start` to `target`. -/
def wayFrom (start target : Path) : List String :=
  let (up, down) := split start target
  up.map (fun _ => "..") ++ down

/-- The way from `start` to `target` as the path of an import: it begins with a point. -/
def moduleFrom (start target : Path) : String :=
  match wayFrom start target with
  | [] => "."
  | parts =>
    let way := joined parts
    if way.toList.head? = some '.' then way else "./" ++ way

/-- What follows `root` in a path, if it begins with it. -/
def below? : (root path : Path) → Option Path
  | [], p => some p
  | a :: root, b :: p => if a = b then below? root p else none
  | _ :: _, [] => none

end Path

end Scaffold.Disk
