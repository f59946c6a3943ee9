import Scaffold.Schema.Options
import Scaffold.Schema.Reader

/-!
# `Scaffold.Schema.Document` — entities and options of a schema document

A document holds its entities under `entities` or `tables` and its options under `config` or
`options`. The first of two keys counts if both are there.

## Contents
- **Faults.** `DocumentFault`.
- **Reading.** `readEntityList`, `readDocument`.
-/

namespace Scaffold.Schema

open Decimal (digitsOf)

/-! ## Faults -/

/-- Why a document gives no entities and options. -/
inductive DocumentFault
  /-- There is no list of entities. -/
  | noEntities
  /-- What stands for the entities is no list. -/
  | entitiesNoList (key kind : String)
  /-- What stands for the options is no mapping. -/
  | optionsNoMapping (key kind : String)
  /-- The entity at a position is faulty. -/
  | entity (position : Nat) (faults : List Fault)
  /-- Entities share names. -/
  | repeatedEntities (names : List String)
  /-- The options are faulty. -/
  | options (faults : List Fault)
  /-- A default cannot be written, or a value that names no style cannot be shown. -/
  | unwritable (cause : Json.Unwritable)

/-- The words for a fault, without the list of what is wrong inside. -/
def DocumentFault.message : DocumentFault → String
  | .noEntities =>
    "Cannot find entity definitions in input. Expected top-level key: 'entities' or 'tables'."
  | .entitiesNoList key kind => s!"'{key}' must be a list, got {kind}."
  | .optionsNoMapping key kind => s!"'{key}' must be a mapping, got {kind}."
  | .entity i _ => s!"Entity #{digitsOf i} failed validation"
  | .repeatedEntities names => "Duplicate entity names: " ++ quotedList names
  | .options _ => "Invalid generation options"
  | .unwritable cause => cause.message

/-- The faults inside, with the name of the record that was read. -/
def DocumentFault.inner? : DocumentFault → Option (String × List Fault)
  | .entity _ fs => some ("Entity", fs)
  | .options fs => some ("GenerationOptions", fs)
  | _ => none

/-- The words for a fault, with the number of faults inside. -/
def DocumentFault.headline (f : DocumentFault) : String :=
  match f.inner? with
  | none => f.message
  | some (record, fs) => s!"{f.message}: {Fault.headline record fs}"

/-- What messages call a fault. -/
def DocumentFault.label : DocumentFault → String
  | .unwritable cause => cause.label
  | _ => "ConfigurationError"

/-! ## Reading -/

/-- The keys that entities stand under. -/
def entityKeys : List String := ["entities", "tables"]

/-- The keys that options stand under. -/
def optionKeys : List String := ["config", "options"]

/-- The first of some keys that a mapping has, with its value. -/
def firstOf (es : Entries) (keys : List String) : Option (String × Value) :=
  keys.findSome? fun k => (es.lookup k).map fun v => (k, v)

/-- A result together with the messages on the way to it. -/
structure Logged (α : Type) where
  log : List Log.Entry
  result : Except DocumentFault α

/-- The entities of a list, the first one standing at `position`, with their warnings. -/
def readEntityList : (position : Nat) → List Value → Logged (List Entity)
  | _, [] => ⟨[], .ok []⟩
  | n, v :: r =>
    match Entity.read v with
    | .aborted cause => ⟨[], .error (.unwritable cause)⟩
    | .invalid fs => ⟨[], .error (.entity n fs)⟩
    | .valid e =>
      let rest := readEntityList (n + 1) r
      ⟨e.warnings ++ rest.log, rest.result.map (e :: ·)⟩

/-- Options that are given as a mapping. -/
def readOptionValue (platform : String) (v : Value) : Except DocumentFault Options :=
  match Options.read platform v with
  | .valid o => .ok o
  | .invalid fs => .error (.options fs)
  | .aborted cause => .error (.unwritable cause)

/-- Entities of different names, and the options. -/
def combine (platform : String) (options : Value) (es : List Entity) :
    Except DocumentFault (List Entity × Options) :=
  match repeated (es.map Entity.name) with
  | [] => (readOptionValue platform options).map fun o => (es, o)
  | names => .error (.repeatedEntities names)

/-- The message that a document gives no options. -/
def noOptionsNote : Log.Entry :=
  ⟨.info, .generator, "No generation options found in input, using defaults."⟩

/-- The options of a document; a mapping without entries stands for none. -/
def optionsOf (doc : Entries) : List Log.Entry × Except DocumentFault Value :=
  match firstOf doc optionKeys with
  | none => ([noOptionsNote], .ok (.map []))
  | some (_, .null) => ([noOptionsNote], .ok (.map []))
  | some (key, v) =>
    match v.entries? with
    | some es => ([], .ok (.map es))
    | none => ([], .error (.optionsNoMapping key v.kind))

/-- The entities and the options of a document. -/
def readDocument (platform : String) (doc : Entries) : Logged (List Entity × Options) :=
  match firstOf doc entityKeys with
  | none => ⟨[], .error .noEntities⟩
  | some (key, v) =>
    match v.listItems? with
    | none => ⟨[], .error (.entitiesNoList key v.kind)⟩
    | some items =>
      match optionsOf doc with
      | (log, .error f) => ⟨log, .error f⟩
      | (log, .ok options) =>
        let read := readEntityList 0 items
        ⟨log ++ read.log, read.result.bind (combine platform options)⟩

end Scaffold.Schema
