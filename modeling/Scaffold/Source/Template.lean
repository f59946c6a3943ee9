import Scaffold.Source.Controller
import Scaffold.Source.Dto
import Scaffold.Source.Model
import Scaffold.Source.Module

/-!
# `Scaffold.Source.Template` — generated files by name, from what is in scope

Each kind of file is rendered from names that are in scope. A name that is missing is a fault only
where the file needs it, and the first one needed is told of.

## Contents
- **Templates.** `Template`, `Template.ofPath?`.
- **Scopes.** `Scope`, with `need` and `path`.
- **Rendering.** `RenderFault`, `Template.lines`, `Template.render`.
-/

namespace Scaffold.Source

open Naming (Policy)
open Schema (Entity Relation)

/-! ## Templates -/

/-- The templates. -/
inductive Template
  | model
  | dto
  | service
  | controller
  | module
  | index
  | project
  deriving DecidableEq, Repr

namespace Template

/-- All templates. -/
def all : List Template := [.model, .dto, .service, .controller, .module, .index, .project]

/-- The file that a template is kept in. -/
def fileName : Template → String
  | .model => "model.ts.jinja2"
  | .dto => "dto.ts.jinja2"
  | .service => "service.ts.jinja2"
  | .controller => "controller.ts.jinja2"
  | .module => "module.ts.jinja2"
  | .index => "index.ts.jinja2"
  | .project => "tsconfig.json.jinja2"

/-- The template at a path. Empty parts of the path and single points do not count. -/
def ofPath? (path : String) : Option Template :=
  let parts := (Text.splitOn '/' path.toList).filter fun s => s ≠ [] && s ≠ ['.']
  match parts with
  | [name] => all.find? fun t => t.fileName.toList = name
  | _ => none

/-- The template of a kind of file. -/
def ofArtifact : Artifact → Template
  | .model => .model
  | .dto => .dto
  | .service => .service
  | .controller => .controller
  | .module => .module
  | .index => .index

end Template

/-! ## Scopes -/

/-- Why a file could not be rendered. -/
inductive RenderFault
  /-- A name is not in scope. -/
  | undefined (name : String)
  /-- A mapping in scope has no entry of a name. -/
  | noEntry (name : String)
  /-- A value cannot be written. -/
  | unwritable (cause : Json.Unwritable)
  /-- A value of some kind is given for the line ending, but is none. -/
  | noLineEnding (kind : String)
  deriving DecidableEq, Repr

/-- The words for a fault. -/
def RenderFault.message : RenderFault → String
  | .undefined name => s!"'{name}' is undefined"
  | .noEntry name => s!"'dict object' has no attribute '{name}'"
  | .unwritable cause => cause.message
  | .noLineEnding kind => s!"'{kind}' object has no attribute 'sequence'"

/-- What is said of an entity in a scope; either part may be missing. -/
structure PartialMention where
  name : Option String
  file : Option String
  deriving Repr

/-- The names in scope. -/
structure Scope where
  paths : Option (List (String × String)) := none
  entityFiles : Option EntityFiles := none
  entity : Option Entity := none
  relations : Option (List Relation) := none
  entities : Option (List PartialMention) := none
  module : Option String := none

/-- What a name stands for. -/
def need {α : Type} (name : String) (value : Option α) : Except RenderFault α :=
  match value with
  | some a => .ok a
  | none => .error (.undefined name)

/-- The path to a directory. -/
def Scope.path (s : Scope) (name : String) : Except RenderFault String := do
  let paths ← need "paths" s.paths
  match paths.lookup name with
  | some p => return p
  | none => .error (.noEntry name)

/-- The names that files are called after. They are needed only for entities that refer to others. -/
def Scope.files (s : Scope) (e : Entity) : Except RenderFault EntityFiles :=
  if (relatedNames e).isEmpty then .ok [] else need "entity_files" s.entityFiles

/-- A part of a mention that has to be there. -/
def entry (name : String) (value : Option String) : Except RenderFault String :=
  match value with
  | some s => .ok s
  | none => .error (.noEntry name)

/-- A mention with both parts. -/
def PartialMention.whole (m : PartialMention) : Except RenderFault Mention := do
  let name ← entry "tsc_name" m.name
  let file ← entry "file_name" m.file
  return ⟨name, file⟩

/-- What is said of an entity. -/
def mentionOf (e : Entity) : PartialMention := ⟨some e.name, some e.fileName⟩

/-! ## Rendering -/

/-- A mention for a line of the index, where the name counts for default exports only. -/
def indexMention (p : Policy) (m : PartialMention) : Except RenderFault Mention :=
  if p.isDefaultExport then m.whole
  else (entry "file_name" m.file).map fun file => ⟨m.name.getD "", file⟩

/-- The mentions of a module. Paths are looked up when the first entity needs them. -/
def moduleMentions (s : Scope) (ms : List PartialMention) :
    Except RenderFault ((String × String × String) × List Mention) :=
  match ms with
  | [] => .ok (("", "", ""), [])
  | m :: _ => do
    let _ ← entry "tsc_name" m.name
    let models ← s.path "models"
    let _ ← entry "file_name" m.file
    let services ← s.path "services"
    let controllers ← s.path "controllers"
    let ms ← ms.mapM PartialMention.whole
    return ((models, services, controllers), ms)

/-- The lines of a file. -/
def Template.lines (t : Template) (p : Policy) (s : Scope) : Except RenderFault Lines :=
  match t with
  | .model => do
    let common ← s.path "common"
    let e ← need "entity" s.entity
    let files ← s.files e
    (modelLines p common files e).mapError .unwritable
  | .dto => do
    let e ← need "entity" s.entity
    let files ← s.files e
    return dtoLines p files e
  | .service => do
    let e ← need "entity" s.entity
    let models ← s.path "models"
    let dtos ← s.path "dtos"
    return serviceLines p models dtos e
  | .controller => do
    let e ← need "entity" s.entity
    let services ← s.path "services"
    let dtos ← s.path "dtos"
    let relations ← need "relations_one_to_many" s.relations
    return controllerLines p services dtos e relations
  | .module => do
    let ms ← need "entities" s.entities
    let ((models, services, controllers), ms) ← moduleMentions s ms
    let module ← need "module" s.module
    return moduleLines p models services controllers ms module
  | .index => do
    let ms ← need "entities" s.entities
    let ms ← ms.mapM (indexMention p)
    return indexLines p ms
  | .project => return projectLines p

/-- The text of a file whose lines end with `eol`. -/
def Template.render (t : Template) (p : Policy) (s : Scope) (eol : String) :
    Except RenderFault String :=
  (t.lines p s).map (joinLines eol)

end Scaffold.Source
