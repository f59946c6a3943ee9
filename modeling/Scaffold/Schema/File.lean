import Scaffold.Disk.Change
import Scaffold.Json.Reader
import Scaffold.Log
import Scaffold.Text.LetterCase
import Scaffold.Text.Lines
import Scaffold.Yaml.Document

/-!
# `Scaffold.Schema.File` — schema documents in files

The end of its name tells the format of a schema file. Where it does not, the file is read as JSON,
and as YAML if that fails.

## Contents
- **Places.** `Location`.
- **Faults.** `LoadFault`.
- **Loading.** `parseJson`, `parseYaml`, `load`.
-/

namespace Scaffold.Schema

open Disk (Path)

/-! ## Places -/

/-- Where a schema file lies, and how messages name it. -/
structure Location where
  place : Path
  shown : String
  deriving DecidableEq, Repr

namespace Location

/-- The place that a text names from the directory `here`. -/
def ofText (here : Path) (text : String) : Location :=
  ⟨here.join text, Disk.shownPath text⟩

/-- The place of a path. -/
def ofPath (p : Path) : Location := ⟨p, p.text⟩

/-- The last part of the name. -/
def name (l : Location) : String := (Disk.partsOf l.shown).getLastD ""

/-- The end of the name, in small letters. -/
def suffix (l : Location) : String := Text.lower (Path.suffixOf l.name)

end Location

/-! ## Faults -/

/-- Why a schema file could not be loaded. -/
inductive LoadFault
  | missing (shown : String)
  | notFile (shown : String)
  | unreadable (failure : Disk.Failure)
  | encoding (fault : Text.Utf8.Fault)
  | json (shown : String) (report : Json.Report)
  | yaml (shown : String) (failure : Yaml.Failure)
  /-- A JSON document is no object. -/
  | notObject (kind : String)
  /-- A YAML document is no mapping. -/
  | notMapping (kind : String)

namespace LoadFault

/-- What messages call a fault of a YAML document. -/
def yamlLabel : Yaml.Failure → String
  | .malformed => "ConfigurationError"
  | .codePoint n => if n < 0x80000000 then "ValueError" else "OverflowError"
  | .loneHalf => "UnicodeEncodeError"
  | .integer _ _ => "ValueError"
  | .longInteger _ => "ValueError"
  | .float _ => "ValueError"
  | .tooLarge => "OverflowError"
  | .emptyNumber => "IndexError"
  | .truthValue _ => "KeyError"
  | .notATime => "AttributeError"
  | .timeOfParts => "TypeError"
  | .outOfRange _ => "ValueError"
  | .endless => "RecursionError"

/-- What messages call a fault of a JSON document. -/
def jsonLabel : Json.Cause → String
  | .longInteger _ => "ValueError"
  | .loneHalf => "UnicodeEncodeError"
  | .tooDeep _ => "RecursionError"
  | _ => "ConfigurationError"

/-- What messages call a fault. -/
def label : LoadFault → String
  | .missing _ => "FileNotFoundError"
  | .notFile _ => "ConfigurationError"
  | .unreadable f => f.label
  | .encoding _ => "UnicodeDecodeError"
  | .json _ r => jsonLabel r.cause
  | .yaml _ f => yamlLabel f
  | .notObject _ => "ConfigurationError"
  | .notMapping _ => "ConfigurationError"

/-- The words for a fault. -/
def message : LoadFault → String
  | .missing shown => "Schema file not found: " ++ shown
  | .notFile shown => "Schema path is not a file: " ++ shown
  | .unreadable f => f.message
  | .encoding f => f.message
  | .json shown r =>
    match r.cause with
    | .longInteger _ => r.cause.text
    | .loneHalf => r.cause.text
    | .tooDeep _ => r.cause.text
    | _ => s!"Invalid JSON in {shown}: {r.message}"
  | .yaml shown f =>
    match f with
    | .malformed => s!"{f.message} in {shown}"
    | _ => f.message
  | .notObject kind => s!"Expected a JSON object at top level, got {kind}."
  | .notMapping kind => s!"Expected a YAML mapping at top level, got {kind}."

/-- The fault lies in what the document says. -/
def isConfiguration (f : LoadFault) : Bool := f.label = "ConfigurationError"

/-- The document spells half of a surrogate pair. Its values are texts of characters here, so nothing
    is told of what comes of it. -/
def isLoneHalf : LoadFault → Bool
  | .json _ r => r.cause = .loneHalf
  | .yaml _ .loneHalf => true
  | _ => false

end LoadFault

/-! ## Loading -/

/-- The entries of a JSON document. -/
def parseJson (shown text : String) : Except LoadFault Entries :=
  match Json.read text with
  | .error r => .error (.json shown r)
  | .ok v =>
    match v.entries? with
    | some es => .ok es
    | none => .error (.notObject v.kind)

/-- The entries of a YAML document. -/
def parseYaml (shown text : String) : Except LoadFault Entries :=
  match Yaml.read text with
  | .error f => .error (.yaml shown f)
  | .ok v =>
    match v.entries? with
    | some es => .ok es
    | none => .error (.notMapping v.kind)

/-- The text of a file, every line break of which becomes a line feed. -/
def readText? (d : Disk) (l : Location) : Except LoadFault String := do
  let bytes ← (d.read l.place l.shown).mapError .unreadable
  let text ← (Text.Utf8.decode bytes).mapError .encoding
  return String.ofList (Text.replaceBreaks ['\n'] text.toList)

/-- The entries of a document whose format is not known. -/
def parseEither (shown text : String) : Except LoadFault Entries :=
  match parseJson shown text with
  | .error f => if f.isConfiguration then parseYaml shown text else .error f
  | .ok es => .ok es

/-- The format of a schema file. -/
inductive Format
  | json
  | yaml
  | unknown
  deriving DecidableEq, Repr

/-- The format that the end of a name tells. -/
def Format.ofSuffix (suffix : String) : Format :=
  if suffix = ".yaml" ∨ suffix = ".yml" then .yaml
  else if suffix = ".json" then .json
  else .unknown

/-- The entries of a document in a format. -/
def Format.parse : Format → (shown text : String) → Except LoadFault Entries
  | .json => parseJson
  | .yaml => parseYaml
  | .unknown => parseEither

/-- The message that the end of a name tells nothing. -/
def unknownFormatNote (suffix : String) : Log.Entry :=
  ⟨.info, .generator, s!"Unknown extension '{suffix}', trying JSON then YAML."⟩

/-- The file at a place is there. -/
def checkFile (d : Disk) (l : Location) : Except LoadFault Unit := do
  match ← (d.status? l.place l.shown).mapError .unreadable with
  | none => throw (.missing l.shown)
  | some (.file _) => return ()
  | some _ => throw (.notFile l.shown)

/-- The entries of the schema document in a file, with the messages on the way. -/
def load (d : Disk) (l : Location) : List Log.Entry × Except LoadFault Entries :=
  match checkFile d l with
  | .error f => ([], .error f)
  | .ok () =>
    let format := Format.ofSuffix l.suffix
    (if format = .unknown then [unknownFormatNote l.suffix] else [],
     (readText? d l).bind (format.parse l.shown))

end Scaffold.Schema
