import Scaffold.Choice
import Scaffold.Naming.Words

/-!
# `Scaffold.Naming.CaseStyle` — styles of identifiers

## Contents
- **Styles.** `CaseStyle`, with the styles legal for entities, files and properties.
- **Conversion.** `camel`, `pascal`, `joined`, `CaseStyle.convert`.
- **Reading.** `CaseFault` with its name and its words, `CaseStyle.read`.
-/

namespace Scaffold.Naming

open Text (isDigit lowerChar upperChar)

/-- The styles of identifiers; `verbatim` leaves a name as it is. -/
inductive CaseStyle
  | camel
  | pascal
  | param
  | verbatim
  | snake
  deriving DecidableEq, Repr

instance : Choice CaseStyle where
  all := [.camel, .pascal, .param, .verbatim, .snake]
  name
    | .camel => "camel"
    | .pascal => "pascal"
    | .param => "param"
    | .verbatim => "none"
    | .snake => "snake"
  label := "CaseStyle"

namespace CaseStyle

/-- The name of a style. -/
def name (s : CaseStyle) : String := Choice.name s

/-- The styles for names of entities. -/
def forEntities : List CaseStyle := [.camel, .verbatim, .pascal]

/-- The styles for names of files. -/
def forFiles : List CaseStyle := [.camel, .verbatim, .param, .pascal]

/-- The styles for names of properties. -/
def forProperties : List CaseStyle := [.camel, .verbatim, .pascal, .snake]

end CaseStyle

/-! ## Conversion -/

/-- A word in small letters. -/
def lowered (word : List Char) : List Char := word.map lowerChar

/-- A word with a capital in front. After another word a digit in front is set off by an
    underscore, since nothing else would show where the word begins. -/
def capitalized (leading : Bool) : List Char → List Char
  | [] => []
  | c :: r =>
    if !leading && isDigit c then '_' :: c :: lowered r else upperChar c :: lowered r

/-- The first word in small letters, the others capitalized. -/
def camel : List (List Char) → List Char
  | [] => []
  | w :: ws => lowered w ++ ws.flatMap (capitalized false)

/-- All words capitalized. -/
def pascal : List (List Char) → List Char
  | [] => []
  | w :: ws => capitalized true w ++ ws.flatMap (capitalized false)

/-- All words in small letters with `mark` between them. -/
def joined (mark : Char) : List (List Char) → List Char
  | [] => []
  | [w] => lowered w
  | w :: v :: ws => lowered w ++ mark :: joined mark (v :: ws)

/-- The characters of a name in a style. -/
def CaseStyle.convertChars : CaseStyle → List Char → List Char
  | .camel, cs => Naming.camel (words cs)
  | .pascal, cs => Naming.pascal (words cs)
  | .param, cs => joined '-' (words cs)
  | .snake, cs => joined '_' (words cs)
  | .verbatim, cs => cs

/-- A name in a style. -/
def CaseStyle.convert (s : CaseStyle) (text : String) : String :=
  String.ofList (s.convertChars text.toList)

/-! ## Reading -/

/-- Why a value gives no style at the place where it was asked for. -/
inductive CaseFault
  /-- The value names no style at all. -/
  | unknown (value : Value) (place : String) (expected : List CaseStyle)
  /-- The style exists but is not legal there. -/
  | unsupported (style : CaseStyle) (place : String) (expected : List CaseStyle)

/-- The names of the styles, sorted, each once. -/
def styleNames (styles : List CaseStyle) : List String :=
  ([CaseStyle.camel, .verbatim, .param, .pascal, .snake].filter (styles.contains ·)).map CaseStyle.name

namespace CaseFault

/-- Why the words for a fault cannot show the value, if they cannot. -/
def cause? : CaseFault → Option Json.Unwritable
  | .unknown v _ _ => v.unshowable?
  | .unsupported _ _ _ => none

/-- What messages call a fault. -/
def label (f : CaseFault) : String := f.cause?.elim "ConfigurationError" Json.Unwritable.label

/-- The words for a fault. A value that cannot be shown is what they speak of first. -/
def message (f : CaseFault) : String :=
  f.cause?.elim
    (match f with
      | .unknown v place expected =>
        s!"Unknown case style {v.shown} for {place}. " ++
          s!"Expected one of: {quotedList (styleNames expected)}."
      | .unsupported s place expected =>
        s!"Case style '{s.name}' is not supported for {place}. " ++
          s!"Expected one of: {quotedList (styleNames expected)}.")
    Json.Unwritable.message

end CaseFault

/-- The style that a value names, `legal` styles only if they are given. An unknown style is told
    of before an illegal one; without legal styles the message offers all. -/
def CaseStyle.read (v : Value) (legal : Option (List CaseStyle)) (place : String) :
    Except CaseFault CaseStyle :=
  match Choice.ofValue? v with
  | none =>
    let offered := legal.getD []
    .error (.unknown v place (if offered.isEmpty then Choice.all else offered))
  | some s =>
    match legal with
    | none => .ok s
    | some styles => if styles.contains s then .ok s else .error (.unsupported s place styles)

end Scaffold.Naming
