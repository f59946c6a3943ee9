import Scaffold.Artifact
import Scaffold.Naming.CaseStyle
import Scaffold.Schema.Cardinality

/-!
# `Scaffold.Naming.Policy` — the conventions of one run

A policy fixes the styles of names and the forms of declarations. It is made from a request, whose
parts are unchecked values; a policy that exists is legal.

## Contents
- **Conventions.** `Visibility`, `ExportForm`, `Strictness`, `Policy`.
- **Requests.** `Policy.Request`, `PolicyFault`, `Policy.ofRequest`.
- **Names.** `className?`, `fileName`, `propertyName` and their uses for each kind of file.
- **Declarations.** `relationType`, `visibilityWord`, `localImport`.
-/

namespace Scaffold.Naming

open Schema (Cardinality)

/-! ## Conventions -/

/-- The access modifier of properties. -/
inductive Visibility
  | «public»
  | «protected»
  | «private»
  | unmarked
  deriving DecidableEq, Repr

instance : Choice Visibility where
  all := [.public, .protected, .private, .unmarked]
  name
    | .public => "public"
    | .protected => "protected"
    | .private => "private"
    | .unmarked => "none"
  label := "PropertyVisibility"

/-- How classes are exported, and so imported. -/
inductive ExportForm
  | default
  | named
  deriving DecidableEq, Repr

instance : Choice ExportForm where
  all := [.default, .named]
  name
    | .default => "default"
    | .named => "named"
  label := "ExportType"

/-- The mark after the name of a property. -/
inductive Strictness
  | unmarked
  | optional
  | definite
  deriving DecidableEq, Repr

instance : Choice Strictness where
  all := [.unmarked, .optional, .definite]
  name
    | .unmarked => "none"
    | .optional => "?"
    | .definite => "!"
  label := "StrictMode"

/-- The conventions of a run: every style is legal at its place. -/
structure Policy where
  entityCase : CaseStyle := .pascal
  fileCase : CaseStyle := .pascal
  propertyCase : CaseStyle := .camel
  lazy : Bool := false
  visibility : Visibility := .unmarked
  exportForm : ExportForm := .named
  strictness : Strictness := .unmarked
  entityCase_legal : entityCase ∈ CaseStyle.forEntities := by decide
  fileCase_legal : fileCase ∈ CaseStyle.forFiles := by decide
  propertyCase_legal : propertyCase ∈ CaseStyle.forProperties := by decide

namespace Policy

/-! ## Requests -/

/-- What is asked of a policy. -/
structure Request where
  entityCase : Value := .text "pascal"
  fileCase : Value := .text "pascal"
  propertyCase : Value := .text "camel"
  lazy : Value := .bool false
  visibility : Value := .text "none"
  exportForm : Value := .text "named"
  strictness : Value := .text "none"

end Policy

/-- Why a request gives no policy. -/
inductive PolicyFault
  | style (fault : CaseFault)
  | choice (fault : UnknownChoice)

/-- The words for a fault. -/
def PolicyFault.message : PolicyFault → String
  | .style f => f.message
  | .choice f => f.message

/-- A style of a legal set, with the proof that it is in it. -/
def readLegal (v : Value) (styles : List CaseStyle) (place : String) :
    Except PolicyFault { s : CaseStyle // s ∈ styles } :=
  match CaseStyle.read v (some styles) place with
  | .error f => .error (.style f)
  | .ok s => if h : s ∈ styles then .ok ⟨s, h⟩ else .error (.style (.unsupported s place styles))

/-- An alternative of a set. -/
def readChoice {α : Type} [Choice α] (v : Value) : Except PolicyFault α :=
  (Choice.read v).mapError .choice

namespace Policy

/-- The policy that a request asks for. Styles are checked first, in the order of the fields. -/
def ofRequest (q : Request) : Except PolicyFault Policy := do
  let ⟨entityCase, he⟩ ← readLegal q.entityCase CaseStyle.forEntities "entity names"
  let ⟨fileCase, hf⟩ ← readLegal q.fileCase CaseStyle.forFiles "file names"
  let ⟨propertyCase, hp⟩ ← readLegal q.propertyCase CaseStyle.forProperties "property names"
  let visibility ← readChoice q.visibility
  let exportForm ← readChoice q.exportForm
  let strictness ← readChoice q.strictness
  return ⟨entityCase, fileCase, propertyCase, q.lazy.truthy, visibility, exportForm, strictness,
    he, hf, hp⟩

/-! ## Names -/

/-- The name of an entity in the style for entities. -/
def entityBase (p : Policy) (base : String) : String := p.entityCase.convert base

/-- The name of an entity's class of a kind; there is none for the index. -/
def className? (p : Policy) (a : Artifact) (base : String) : Option String :=
  a.classSuffix?.map (p.entityBase base ++ ·)

/-- The class of an entity's model. -/
def modelName (p : Policy) (base : String) : String := p.entityBase base ++ "Model"

/-- The class of an entity's data transfer object. -/
def dtoName (p : Policy) (base : String) : String := p.entityBase base ++ "Dto"

/-- The class of an entity's service. -/
def serviceName (p : Policy) (base : String) : String := p.entityBase base ++ "Service"

/-- The class of an entity's controller. -/
def controllerName (p : Policy) (base : String) : String := p.entityBase base ++ "Controller"

/-- The class of a module. -/
def moduleName (p : Policy) (base : String) : String := p.entityBase base ++ "Module"

/-- The name of a property. -/
def propertyName (p : Policy) (raw : String) : String := p.propertyCase.convert raw

/-- A file name without suffix. -/
def fileStem (p : Policy) (base : String) : String := p.fileCase.convert base

/-- The name of a file, without extension. A module's file keeps its name as it is, and the index
    has a name of its own. -/
def fileName (p : Policy) (a : Artifact) (base : String) : String :=
  match a with
  | .module => base ++ a.fileSuffix
  | .index => p.fileStem "index"
  | a => p.fileStem base ++ a.fileSuffix

/-! ## Declarations -/

/-- The type of a navigation property: a list for many entities, and a promise of it if relations
    are lazy. -/
def relationType (p : Policy) (type : String) (c : Cardinality) : String :=
  let t := if c.isToMany then type ++ "[]" else type
  if p.lazy then "Promise<" ++ t ++ ">" else t

/-- The access modifier with a space after it, or nothing. -/
def visibilityWord (p : Policy) : String :=
  if p.visibility = .unmarked then "" else Choice.name p.visibility ++ " "

/-- Classes are default exports. -/
def isDefaultExport (p : Policy) : Bool := p.exportForm = .default

/-- The word for default exports, or nothing. -/
def defaultExport (p : Policy) : String := if p.isDefaultExport then "default" else ""

/-- The import clause for a generated class. -/
def localImport (p : Policy) (symbol : String) : String :=
  if p.isDefaultExport then symbol else "\x7b" ++ symbol ++ "\x7d"

/-- The mark after the name of a property, or nothing. -/
def strictMark (p : Policy) : String :=
  if p.strictness = .unmarked then "" else Choice.name p.strictness

end Policy

end Scaffold.Naming
