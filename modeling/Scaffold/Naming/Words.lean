import Scaffold.Text.Basic

/-!
# `Scaffold.Naming.Words` — the words of an identifier

An identifier of any style is cut into words where a capital follows a small letter or a digit,
where the last capital of a row begins a word of its own, and at all characters that are neither
letters nor digits of ASCII. Spaces are put at the cuts, one kind of cut after the other, and the
words are what stands between the spaces.

## Contents
- **Cuts.** `openHumps`, `openAcronyms`, `blankMarks`.
- **Words.** `words`.
-/

namespace Scaffold.Naming

open Text (isBlank isDigit isLower isUpper isAlnum)

/-- A space before every capital that follows a small letter or a digit. The pair is taken as a
    whole: the search for the next one goes on behind the capital. -/
def openHumps : List Char → List Char
  | c :: d :: r =>
    if (isLower c || isDigit c) && isUpper d then c :: ' ' :: d :: openHumps r
    else c :: openHumps (d :: r)
  | cs => cs

/-- A space between two capitals of which the second is followed by a small letter. The three are
    taken as a whole. -/
def openAcronyms : List Char → List Char
  | c :: d :: e :: r =>
    if isUpper c && isUpper d && isLower e then c :: ' ' :: d :: e :: openAcronyms r
    else c :: openAcronyms (d :: e :: r)
  | cs => cs

/-- One space for every row of characters that are neither letters nor digits. `inRow` tells that the
    character before is one of them, so that its row has its space already. -/
def blankMarks : (inRow : Bool) → List Char → List Char
  | _, [] => []
  | inRow, c :: r =>
    if isAlnum c then c :: blankMarks false r
    else if inRow then blankMarks true r
    else ' ' :: blankMarks true r

/-- The words of an identifier. -/
def words (name : List Char) : List (List Char) :=
  Text.runs (fun c => !isBlank c) (blankMarks false (openAcronyms (openHumps name)))

end Scaffold.Naming
