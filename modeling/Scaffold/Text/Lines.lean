import Scaffold.Text.Basic

/-!
# `Scaffold.Text.Lines` — line breaks

A line ends at a carriage return followed by a line feed, at a line feed, or at a carriage return
alone.

## Contents
- **Styles.** `Eol`: the two line endings a file can be written with.
- **Replacing.** `replaceBreaks`, `normalize`: every break becomes the wanted one.
- **Counting.** `lineCount`: lines as a report counts them.
-/

namespace Scaffold.Text

/-- The line endings a file can be written with. -/
inductive Eol
  | lf
  | crlf
  deriving DecidableEq, Repr

/-- The characters that end a line. -/
def Eol.sequence : Eol → String
  | .lf => "\n"
  | .crlf => "\r\n"

/-- The name an option gives to the style. -/
def Eol.name : Eol → String
  | .lf => "LF"
  | .crlf => "CRLF"

/-- The style of a platform, told by its own line ending. -/
def Eol.ofPlatform (platform : String) : Eol :=
  if platform = "\r\n" then .crlf else .lf

/-- Every line break of the text replaced by `target`. -/
def replaceBreaks (target : List Char) : List Char → List Char
  | [] => []
  | '\r' :: '\n' :: r => target ++ replaceBreaks target r
  | c :: r =>
    if c = '\n' ∨ c = '\r' then target ++ replaceBreaks target r
    else c :: replaceBreaks target r

/-- The text with its line breaks in the style `eol`. Where the platform already ends its lines so,
    nothing is replaced. -/
def normalize (text : String) (eol : Eol) (platform : String) : String :=
  if platform = eol.sequence then text
  else String.ofList (replaceBreaks eol.sequence.toList text.toList)

/-- The number of lines: line feeds, and one more if the text does not end with one. -/
def lineCount (text : String) : Nat :=
  match text.toList with
  | [] => 0
  | c :: r =>
    (c :: r).count '\n' + (if (c :: r).getLast? = some '\n' then 0 else 1)

end Scaffold.Text
