import Scaffold.Disk.Path
import Scaffold.Text.Utf8
import Scaffold.Value.Display

/-!
# `Scaffold.Disk.Basic` — a file system as a value

A disk holds directories, files and symbolic links under absolute paths. Looking up a path follows
links, and fails the way a file system does.

## Contents
- **Disks.** `Entry`, `Disk`, `find?`, `put`.
- **Failures.** `Errno`, `Failure`.
- **Looking up.** `locate`, `status`, `isDirectory`.
- **Resolving.** `resolve`: the path without links.
-/

namespace Scaffold

/-- What a path can lead to. -/
inductive Entry
  | directory
  | file (bytes : List UInt8)
  | link (target : String)
  deriving DecidableEq, Repr

/-- The entries of a file system. The root is always a directory. -/
structure Disk where
  entries : List (Disk.Path × Entry)
  deriving Repr

namespace Disk

/-- The entry at a path, links not followed. -/
def find? (d : Disk) (p : Path) : Option Entry :=
  if p.isEmpty then some .directory else d.entries.lookup p

/-- The disk with an entry at a path. -/
def put (d : Disk) (p : Path) (e : Entry) : Disk :=
  ⟨(p, e) :: d.entries.filter fun (q, _) => q ≠ p⟩

/-! ## Failures -/

/-- The ways in which an operation fails. -/
inductive Errno
  | missing
  | tooManyArguments
  | forbidden
  | exists
  | notDirectory
  | isDirectory
  | nameTooLong
  | tooManyLinks
  deriving DecidableEq, Repr

namespace Errno

/-- The number of a failure. -/
def code : Errno → Nat
  | .missing => 2
  | .tooManyArguments => 7
  | .forbidden => 13
  | .exists => 17
  | .notDirectory => 20
  | .isDirectory => 21
  | .nameTooLong => 36
  | .tooManyLinks => 40

/-- The words for a failure. -/
def message : Errno → String
  | .missing => "No such file or directory"
  | .tooManyArguments => "Argument list too long"
  | .forbidden => "Permission denied"
  | .exists => "File exists"
  | .notDirectory => "Not a directory"
  | .isDirectory => "Is a directory"
  | .nameTooLong => "File name too long"
  | .tooManyLinks => "Too many levels of symbolic links"

/-- What messages call a failure. -/
def label : Errno → String
  | .missing => "FileNotFoundError"
  | .forbidden => "PermissionError"
  | .exists => "FileExistsError"
  | .notDirectory => "NotADirectoryError"
  | .isDirectory => "IsADirectoryError"
  | _ => "OSError"

end Errno

/-- A failed operation: how, and on which path as it was written. -/
inductive Failure
  | system (errno : Errno) (path : String)
  /-- A path holds a NUL character. -/
  | nullByte
  /-- Links lead back to themselves. -/
  | linkLoop (path : String)
  deriving DecidableEq, Repr

/-- What messages call a failure. -/
def Failure.label : Failure → String
  | .system e _ => e.label
  | .nullByte => "ValueError"
  | .linkLoop _ => "RuntimeError"

/-- The words for a failure. -/
def Failure.message : Failure → String
  | .system e path => s!"[Errno {Decimal.digitsOf e.code}] {e.message}: {quoted path}"
  | .nullByte => "embedded null byte"
  | .linkLoop path => "Symlink loop from " ++ quoted path

/-! ## Looking up -/

/-- The longest name of an entry, in bytes. -/
def nameLimit : Nat := 255

/-- The length from which on a path is refused, in bytes. -/
def pathLimit : Nat := 4096

/-- How many links are followed on the way. -/
def linkLimit : Nat := 40

/-- The sum of the lengths of all link targets, by which walks are bounded. -/
def linkWeight (d : Disk) : Nat :=
  d.entries.foldr (fun (_, e) n =>
    match e with
    | .link target => (partsOf target).length + 1 + n
    | _ => n) 0

/-- Walks from the directory `here` along `rest`. The last part need not exist; a link there is
    followed if `follow` says so. -/
def walk (d : Disk) (follow : Bool) : (fuel links : Nat) → (here : Path) → (rest : List String) →
    Except Errno Path
  | 0, _, _, _ => .error .tooManyLinks
  | _ + 1, _, here, [] => .ok here
  | n + 1, links, here, name :: rest =>
    if d.find? here ≠ some .directory then .error .notDirectory
    else if name = ".." then walk d follow n links here.dropLast rest
    else if nameLimit < name.utf8ByteSize then .error .nameTooLong
    else
      let there := here ++ [name]
      match d.find? there with
      | none => if rest.isEmpty then .ok there else .error .missing
      | some (.link target) =>
        if rest.isEmpty && !follow then .ok there
        else match links with
          | 0 => .error .tooManyLinks
          | k + 1 =>
            walk d follow n k (if isAbsolute target then [] else here) (partsOf target ++ rest)
      | some _ => walk d follow n links there rest

/-- The place that a path leads to. -/
def locate (d : Disk) (follow : Bool) (p : Path) : Except Errno Path :=
  if pathLimit ≤ p.text.utf8ByteSize then .error .nameTooLong
  else walk d follow (p.length + (linkLimit + 1) * (linkWeight d + 1) + 1) linkLimit [] p

/-- What a path leads to, links followed. -/
def status (d : Disk) (p : Path) : Except Errno Entry := do
  let q ← d.locate true p
  match d.find? q with
  | some e => return e
  | none => .error .missing

/-- A failure that only says that nothing is there. -/
def Errno.saysAbsent : Errno → Bool
  | .missing => true
  | .notDirectory => true
  | .tooManyLinks => true
  | _ => false

/-- What a path leads to, if anything is there. -/
def status? (d : Disk) (p : Path) (shown : String) : Except Failure (Option Entry) :=
  match d.status p with
  | .ok e => .ok (some e)
  | .error e => if e.saysAbsent then .ok none else .error (.system e shown)

/-- A path leads to a directory. -/
def isDirectory (d : Disk) (p : Path) : Except Failure Bool :=
  (d.status? p p.text).map fun e => e = some .directory

/-! ## Resolving -/

/-- Follows the links of `rest` from `here` on; `active` are the links that are being followed. The
    flag tells that no link leads back to itself. -/
def follow (d : Disk) : (fuel : Nat) → (active : List Path) → (here : Path) → (rest : List String) →
    Path × Bool
  | 0, _, here, rest => (here ++ rest, false)
  | _ + 1, _, here, [] => (here, true)
  | n + 1, active, here, name :: rest =>
    if name = ".." then follow d n active here.dropLast rest
    else
      let there := here ++ [name]
      match d.find? there with
      | some (.link target) =>
        if active.contains there then (Path.normal (there ++ rest), false)
        else
          match follow d n (there :: active) (if isAbsolute target then [] else here)
              (partsOf target) with
          | (p, true) => follow d n active p rest
          | (p, false) => (Path.normal (p ++ rest), false)
      | _ => follow d n active there rest

/-- The path that a text names from the directory `here`, without links. Parts that do not exist
    stay as they are. -/
def resolve (d : Disk) (here : Path) (text : String) : Except Failure Path :=
  if text.toList.contains '\x00' then .error .nullByte
  else
    let parts := partsOf text
    let (p, _) := d.follow (parts.length + linkWeight d + 2) []
      (if isAbsolute text then [] else here) parts
    match d.status p with
    | .error .tooManyLinks => .error (.linkLoop p.text)
    | _ => .ok p

end Disk

end Scaffold
