import Scaffold.Naming.Policy
import Scaffold.Schema.Checked
import Scaffold.Text.Lines
import Scaffold.Value.Mapping

/-!
# `Scaffold.Schema.Options` — the options of a run

## Contents
- **Options.** `FormatterKind`, `Options`.
- **Reading.** `Options.read`, `Options.ofValue`.
- **Overriding.** `override`: values put over those of a document, whatever spelling it uses.
- **Settings.** `Settings`: what a run is given, names still unchecked; `Options.settings`.
-/

namespace Scaffold.Schema

open Decimal (Binary64)
open Naming (CaseStyle Visibility ExportForm Strictness Policy)
open Text (Eol)

/-! ## Options -/

/-- What the generated files are formatted with. -/
inductive FormatterKind
  | prettier
  | none
  deriving DecidableEq, Repr

instance : Choice FormatterKind where
  all := [.prettier, .none]
  name
    | .prettier => "prettier"
    | .none => "none"
  label := "FormatterKind"

instance : Choice Eol where
  all := [.lf, .crlf]
  name := Eol.name
  label := "EolStyle"

/-- The options of a run. A flat run writes all files into one directory, and no project
    configuration. -/
structure Options where
  resultsPath : String
  flat : Bool
  indexFile : Bool
  fileCase : CaseStyle
  entityCase : CaseStyle
  propertyCase : CaseStyle
  eol : Eol
  lazy : Bool
  visibility : Visibility
  exportForm : ExportForm
  strictness : Strictness
  formatter : FormatterKind
  timeout : Binary64
  extension : String
  deriving Repr

namespace Options

/-- The time a formatter is given if nothing else is said, in seconds. -/
def defaultTimeout : Binary64 := Binary64.ofInt 30

/-- The options when nothing is said, on a platform with the given line ending. -/
def standard (platform : String) : Options :=
  ⟨"./output", false, false, .pascal, .pascal, .camel, Eol.ofPlatform platform, false, .unmarked,
    .named, .unmarked, .prettier, defaultTimeout, "ts"⟩

/-! ## Reading -/

/-- The spellings of the options. -/
def keys : List Key :=
  [⟨"resultsPath", "results_path"⟩, ⟨"noConfigs", "no_configs"⟩, ⟨"indexFile", "index_file"⟩,
   ⟨"convertCaseFile", "convert_case_file"⟩, ⟨"convertCaseEntity", "convert_case_entity"⟩,
   ⟨"convertCaseProperty", "convert_case_property"⟩, ⟨"convertEol", "convert_eol"⟩,
   .single "lazy", ⟨"propertyVisibility", "property_visibility"⟩, ⟨"exportType", "export_type"⟩,
   ⟨"strictMode", "strict_mode"⟩, .single "formatter", ⟨"formatterTimeout", "formatter_timeout"⟩,
   .single "extension"]

/-- A style that is legal at the place of an option. -/
def readStyle (legal : List CaseStyle) (place : String) (v : Value) : Checked CaseStyle :=
  match CaseStyle.read v (some legal) place with
  | .ok s => .valid s
  | .error f => Checked.complaint f.cause? f.message

/-- The options that a mapping gives; the others stand as on the platform. -/
def read (platform : String) : Value → Checked Options :=
  let d := standard platform
  readRecord "GenerationOptions" keys fun es =>
    Options.mk <$> readField es ⟨"resultsPath", "results_path"⟩ readName (some d.resultsPath)
      <*> readField es ⟨"noConfigs", "no_configs"⟩ readBool (some d.flat)
      <*> readField es ⟨"indexFile", "index_file"⟩ readBool (some d.indexFile)
      <*> readField es ⟨"convertCaseFile", "convert_case_file"⟩
        (readStyle CaseStyle.forFiles "convertCaseFile") (some d.fileCase)
      <*> readField es ⟨"convertCaseEntity", "convert_case_entity"⟩
        (readStyle CaseStyle.forEntities "convertCaseEntity") (some d.entityCase)
      <*> readField es ⟨"convertCaseProperty", "convert_case_property"⟩
        (readStyle CaseStyle.forProperties "convertCaseProperty") (some d.propertyCase)
      <*> readField es ⟨"convertEol", "convert_eol"⟩ readChoice (some d.eol)
      <*> readField es (.single "lazy") readBool (some d.lazy)
      <*> readField es ⟨"propertyVisibility", "property_visibility"⟩ readChoice (some d.visibility)
      <*> readField es ⟨"exportType", "export_type"⟩ readChoice (some d.exportForm)
      <*> readField es ⟨"strictMode", "strict_mode"⟩ readChoice (some d.strictness)
      <*> readField es (.single "formatter") readChoice (some d.formatter)
      <*> readField es ⟨"formatterTimeout", "formatter_timeout"⟩ readPositive (some d.timeout)
      <*> readField es (.single "extension") readExtension (some d.extension)

/-! ## Overriding -/

/-- The spelling under which an option is overridden: the one of documents. -/
def spelling (name : String) : String :=
  match keys.find? fun k => k.snake = name with
  | some k => k.camel
  | none => name

/-- One option put over those of a document, in place of every spelling of it. -/
def overrideOne (es : Entries) (name : String) (v : Value) : Entries :=
  ((es.remove name).remove (spelling name)).put (.text (spelling name)) v

/-- Options put over those of a document, one after another. -/
def override (es : Entries) (given : List (String × Value)) : Entries :=
  given.foldl (fun es (name, v) => overrideOne es name v) es

end Options

/-! ## Settings -/

/-- What a run is given. Conventions of naming, the path of the results and the end of file names are
    still values that may be illegal; in place of a line ending there may be a value of some kind that
    is none. -/
structure Settings where
  naming : Policy.Request
  resultsPath : Value
  flat : Bool
  indexFile : Bool
  eol : Except String Eol
  formatter : FormatterKind
  timeout : Binary64
  extension : Value

/-- Options as settings. -/
def Options.settings (o : Options) : Settings where
  naming :=
    { entityCase := .text (Choice.name o.entityCase)
      fileCase := .text (Choice.name o.fileCase)
      propertyCase := .text (Choice.name o.propertyCase)
      lazy := .bool o.lazy
      visibility := .text (Choice.name o.visibility)
      exportForm := .text (Choice.name o.exportForm)
      strictness := .text (Choice.name o.strictness) }
  resultsPath := .text o.resultsPath
  flat := o.flat
  indexFile := o.indexFile
  eol := .ok o.eol
  formatter := o.formatter
  timeout := o.timeout
  extension := .text o.extension

end Scaffold.Schema
