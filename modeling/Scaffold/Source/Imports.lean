import Scaffold.Text.Basic

/-!
# `Scaffold.Source.Imports` — import statements that hold no more than is used

Generated files begin with one import of every decorator that they might use. Of its names those
stay that the rest of the file applies.

## Contents
- **Pruning.** `splitGroup?`, `isUsed`, `pruneChars`, `prune`.
- **Empty imports.** `matchEmptyImport?`, `removeEmptyImport`.
-/

namespace Scaffold.Source

open Text (isBlank dropPat? occursIn trim)

/-! ## Pruning -/

/-- The class that every model extends; it is no decorator. -/
def baseClass : String := "BaseEntity"

/-- The text up to the first opening brace, that within the braces, and that from the closing brace
    on; the braces belong to the outer parts. -/
def splitGroup? (cs : List Char) : Option (List Char × List Char × List Char) :=
  match Text.breakOn '\x7b' cs with
  | none => none
  | some (before, r) =>
    (Text.breakOn '\x7d' r).map fun (group, after) =>
      (before ++ ['\x7b'], group, '\x7d' :: after)

/-- The names of a group, as they stand between commas. -/
def groupNames (group : List Char) : List (List Char) := (Text.splitOn ',' group).map trim

/-- A name is used as a decorator, or it is the base class and mentioned at all. -/
def isUsed (base rest name : List Char) : Bool :=
  !name.isEmpty && (occursIn ('@' :: name ++ ['(']) rest || (name = base && occursIn name rest))

/-- Names with commas between them. -/
def joinNames : List (List Char) → List Char
  | [] => []
  | [n] => n
  | n :: m :: r => n ++ ',' :: joinNames (m :: r)

/-- The text with its first group cut down to the names in use. -/
def pruneChars (base : List Char) (cs : List Char) : List Char :=
  match splitGroup? cs with
  | none => cs
  | some (head, group, rest) =>
    head ++ joinNames ((groupNames group).filter (isUsed base rest)) ++ rest

/-- The text with its first group cut down to the names in use. -/
def prune (text : String) (base : String) : String :=
  String.ofList (pruneChars base.toList text.toList)

/-! ## Empty imports -/

/-- Blanks, then the characters of `word`; what follows them. -/
def dropWord? (word : String) (cs : List Char) : Option (List Char) :=
  dropPat? word.toList (cs.dropWhile isBlank)

/-- What follows a text in quotes of either kind, on one line and without quotes in it. -/
def dropQuoted? : List Char → Option (List Char)
  | [] => none
  | q :: r =>
    if q = '\x22' ∨ q = '\x27' then
      match r.dropWhile fun c => c ≠ '\x22' && c ≠ '\x27' && c ≠ '\r' && c ≠ '\n' with
      | c :: r => if c = q then some r else none
      | [] => none
    else none

/-- After one line break, if one is there. -/
def dropBreak : List Char → List Char
  | '\r' :: '\n' :: r => r
  | '\n' :: r => r
  | '\r' :: r => r
  | r => r

/-- What ends an import: blanks, a semicolon, and the rest of its line if that is blank. -/
def dropEnd (cs : List Char) : List Char :=
  match cs.dropWhile isBlank with
  | ';' :: r => dropBreak (r.dropWhile fun c => c = ' ' || c = '\t')
  | r => r

/-- What follows an import of nothing at the front. -/
def matchEmptyImport? (cs : List Char) : Option (List Char) := do
  let r ← dropPat? "import".toList cs
  let r ← dropWord? "\x7b" r
  let r ← dropWord? "\x7d" r
  let r ← dropWord? "from" r
  let r ← dropQuoted? (r.dropWhile isBlank)
  return dropEnd r

/-- The text without the first import of nothing. -/
def removeEmptyChars : List Char → List Char
  | [] => []
  | c :: r =>
    match matchEmptyImport? (c :: r) with
    | some rest => rest
    | none => c :: removeEmptyChars r

/-- The text without the first import of nothing. -/
def removeEmptyImport (text : String) : String := String.ofList (removeEmptyChars text.toList)

end Scaffold.Source
