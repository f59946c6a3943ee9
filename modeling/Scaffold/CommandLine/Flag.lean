import Scaffold.Decimal.Numeral
import Scaffold.Schema.Options

/-!
# `Scaffold.CommandLine.Flag` — the options of the command line

## Contents
- **Values.** `Accept`: which texts an option takes as its value, and what it makes of them.
- **Options.** `Notice`, `Effect`, `Flag`, `Flag.all`.
- **Requests.** `Request`, with what each option does to it.
-/

namespace Scaffold.CommandLine

open Naming (CaseStyle ExportForm Strictness Visibility)
open Schema (FormatterKind)

/-! ## Values -/

/-- Which texts an option takes as its value. -/
inductive Accept
  | anything
  | number
  | oneOf (names : List String)
  deriving DecidableEq, Repr

/-- The mark after which no argument is an option. -/
def endMark : String := "--"

/-- The value that a text gives, if it is taken. The mark of the end is never a value: every option
    takes it, and has no values then. -/
def Accept.read (a : Accept) (text : String) : Option Value :=
  if text = endMark then some (.list [])
  else match a with
    | .anything => some (.text text)
    | .number => (Decimal.readAnyFloat? text.toList).map .float
    | .oneOf names => if names.contains text then some (.text text) else none

/-- Any name of a set. -/
def choiceOf (α : Type) [Choice α] : Accept := .oneOf ((Choice.all : List α).map Choice.name)

/-- Any of some styles. -/
def styleOf (styles : List CaseStyle) : Accept := .oneOf (styles.map CaseStyle.name)

/-! ## Options -/

/-- What can be asked for instead of a run. -/
inductive Notice
  | help
  | version
  deriving DecidableEq, Repr

/-- What an option of the command line does. -/
inductive Effect
  /-- Names the schema file. -/
  | schema
  /-- Gives an option of the run a value. -/
  | set (name : String) (accept : Accept)
  /-- Turns an option of the run on. -/
  | mark (name : String)
  /-- Asks for more messages. -/
  | verbose
  /-- Asks for errors only. -/
  | quiet
  /-- Asks to be told something, and for nothing else. -/
  | tell (what : Notice)
  deriving DecidableEq, Repr

/-- The option takes a value. -/
def Effect.takesValue : Effect → Bool
  | .schema => true
  | .set _ _ => true
  | _ => false

/-- An option with its spellings. -/
structure Flag where
  spellings : List String
  effect : Effect
  deriving DecidableEq, Repr

/-- The options of the command line. -/
def Flag.all : List Flag :=
  [⟨["-h", "--help"], .tell .help⟩,
   ⟨["--version"], .tell .version⟩,
   ⟨["-s", "--schema"], .schema⟩,
   ⟨["-o", "--output"], .set "results_path" .anything⟩,
   ⟨["--no-configs"], .mark "no_configs"⟩,
   ⟨["--index-file"], .mark "index_file"⟩,
   ⟨["--extension"], .set "extension" .anything⟩,
   ⟨["--case-file"], .set "convert_case_file" (styleOf CaseStyle.forFiles)⟩,
   ⟨["--case-entity"], .set "convert_case_entity" (styleOf CaseStyle.forEntities)⟩,
   ⟨["--case-property"], .set "convert_case_property" (styleOf CaseStyle.forProperties)⟩,
   ⟨["--eol"], .set "convert_eol" (choiceOf Text.Eol)⟩,
   ⟨["--lazy"], .mark "lazy"⟩,
   ⟨["--visibility"], .set "property_visibility" (choiceOf Visibility)⟩,
   ⟨["--export-type"], .set "export_type" (choiceOf ExportForm)⟩,
   ⟨["--strict-mode"], .set "strict_mode" (choiceOf Strictness)⟩,
   ⟨["--formatter"], .set "formatter" (choiceOf FormatterKind)⟩,
   ⟨["--formatter-timeout"], .set "formatter_timeout" .number⟩,
   ⟨["-v", "--verbose"], .verbose⟩,
   ⟨["-q", "--quiet"], .quiet⟩]

/-- The option of a spelling. -/
def Flag.find? (spelling : String) : Option Flag :=
  Flag.all.find? fun f => f.spellings.contains spelling

/-- The options with their spellings, each spelling on its own. -/
def Flag.spelled : List (String × Flag) :=
  Flag.all.flatMap fun f => f.spellings.map fun s => (s, f)

/-! ## Requests -/

/-- What the command line asks for. -/
structure Request where
  schema : Option Value := none
  settings : List (String × Value) := []
  verbose : Nat := 0
  quiet : Bool := false

/-- Why a command line starts no run. -/
inductive Ending
  /-- Something was asked to be told. -/
  | told (what : Notice)
  /-- The command line is faulty. -/
  | usage
  deriving DecidableEq, Repr

namespace Request

/-- The request with an option of the run set; an earlier value is dropped. -/
def set (q : Request) (name : String) (v : Value) : Request :=
  { q with settings := (q.settings.filter fun (n, _) => n ≠ name) ++ [(name, v)] }

/-- The request after one more option, with the value that it was given. -/
def apply (q : Request) (f : Flag) (value : Option String) : Except Ending Request :=
  match f.effect, value with
  | .schema, some path => .ok { q with schema := Accept.anything.read path }
  | .set name accept, some text =>
    match accept.read text with
    | some v => .ok (q.set name v)
    | none => .error .usage
  | .mark name, _ => .ok (q.set name (.bool true))
  | .verbose, _ => .ok { q with verbose := q.verbose + 1 }
  | .quiet, _ => .ok { q with quiet := true }
  | .tell what, _ => .error (.told what)
  | _, none => .error .usage

/-- The name of the option of the run that an option of the command line sets. -/
def settingOf? (f : Flag) : Option String :=
  match f.effect with
  | .set name _ => some name
  | .mark name => some name
  | _ => none

/-- The options of the run that are set, in the order of the options of the command line. -/
def overrides (q : Request) : List (String × Value) :=
  (Flag.all.filterMap settingOf?).filterMap fun name =>
    (q.settings.lookup name).map fun v => (name, v)

/-- The directory for the results, if it is set. -/
def results? (q : Request) : Option Value := q.settings.lookup "results_path"

end Request

end Scaffold.CommandLine
