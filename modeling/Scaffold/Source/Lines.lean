import Scaffold.Naming.Policy
import Scaffold.Naming.Literal
import Scaffold.Projection
import Scaffold.Text.LetterCase

/-!
# `Scaffold.Source.Lines` — pieces that several kinds of generated files share

A generated file is a list of lines. Values are put into a line as they are, even if they hold line
breaks themselves.

## Contents
- **Joining.** `Lines`, `joinLines`.
- **Statements.** `importLine`, `classHead`, `bracketed`.
- **Related entities.** `uniqueNames`, `relatedNames`, `fileFor`.
-/

namespace Scaffold.Source

open Naming (Policy)
open Schema (Entity Relation)

/-- The lines of a file, without line breaks. -/
abbrev Lines := List String

/-- The text of a file: every line with the line break after it. -/
def joinLines (eol : String) (ls : Lines) : String := Text.concat (ls.map (· ++ eol))

/-- An import statement. -/
def importLine (clause path : String) : String := s!"import {clause} from \"{path}\";"

/-- The front of a class declaration up to its name. -/
def classHead (p : Policy) (name : String) : String :=
  "export " ++ (if p.isDefaultExport then "default " else "") ++ "class " ++ name

/-- A text in braces, with a blank on either side. -/
def braced (s : String) : String := "\x7b " ++ s ++ " \x7d"

/-- Texts between brackets, with commas between them. -/
def bracketed (items : List String) : String := "[" ++ Text.joinWith ", " items ++ "]"

/-- A text in double quotes. -/
def inQuotes (s : String) : String := "\"" ++ s ++ "\""

/-- The texts that no earlier text of `seen` or of the list spells in other letters of the same
    kind. -/
def uniqueFrom (seen : List String) : List String → List String
  | [] => []
  | s :: r =>
    let low := Text.lower s
    if seen.contains low then uniqueFrom seen r else s :: uniqueFrom (low :: seen) r

/-- The texts without repetitions; upper and lower case do not differ, and the first spelling
    stays. -/
def uniqueNames (names : List String) : List String := uniqueFrom [] names

/-- The other entities that an entity refers to, in the order of its relations. -/
def relatedNames (e : Entity) : List String :=
  (uniqueNames (e.relations.map Relation.related)).filter fun r => r ≠ e.name

/-- The names that files are called after, by entity. -/
abbrev EntityFiles := List (String × String)

/-- What the files of an entity are called after; an unknown entity's are called after itself. -/
def fileFor (files : EntityFiles) (name : String) : String := (files.lookup name).getD name

/-- The imports of the classes of related entities, from files next to this one. -/
def relatedImports (p : Policy) (files : EntityFiles) (a : Artifact) (className : String → String)
    (e : Entity) : Lines :=
  (relatedNames e).map fun r =>
    importLine (p.localImport (className r)) ("./" ++ p.fileName a (fileFor files r))

end Scaffold.Source
