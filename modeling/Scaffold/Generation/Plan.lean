import Scaffold.Projection
import Scaffold.Report
import Scaffold.Schema.Options
import Scaffold.Source.Imports
import Scaffold.Source.Template

/-!
# `Scaffold.Generation.Plan` — the files of a run before they are written

A plan is a list of steps, each with the drafts of its files in the order of writing. A draft says
where its file goes and what its text is, as far as it could be rendered.

## Contents
- **Jobs.** `Job`: what all files of a run are made from.
- **Drafts.** `Draft`, `Job.finish`, `Job.entityDrafts`, `Job.jointDraft`, `Job.projectDraft`.
- **Steps.** `Step`, `Job.kindStep`, `Job.projectStep`.
- **Plans.** `Job.plan`.
-/

namespace Scaffold.Generation

open Decimal (digitsOf)
open Disk (Path)
open Naming (Policy)
open Schema (Entity)
open Source (RenderFault Scope Template)
open Text (Eol)

/-! ## Jobs -/

/-- What all files of a run are made from. The platform's line ending is what templates are rendered
    with; `eol` is what the files shall have, or the kind of a value that is no line ending. -/
structure Job where
  policy : Policy
  layout : Layout
  entities : List Entity
  module : String
  extension : String
  eol : Except String Eol
  platform : String
  indexFile : Bool

/-! ## Drafts -/

/-- A file that is to be written: its directory and name, what it is made from, the language it is
    written in, and its text. -/
structure Draft where
  directory : Path
  name : String
  source : String
  parser : String
  text : Except RenderFault String

namespace Job

/-- What the files of entities are called after. Of entities of one name the last one counts. -/
def entityFiles (j : Job) : Source.EntityFiles :=
  (j.entities.map fun e => (e.name, e.fileName)).reverse

/-- The name of a file. -/
def fileName (j : Job) (a : Artifact) (base : String) : String :=
  j.policy.fileName a base ++ "." ++ j.extension

/-- A rendered text with the line endings of the job. -/
def normalized (j : Job) (text : String) : Except RenderFault String :=
  match j.eol with
  | .ok eol => .ok (Text.normalize text eol j.platform)
  | .error kind => .error (.noLineEnding kind)

/-- A text with the imports it uses. The index declares nothing and is not pruned; only a model needs
    an import of nothing. -/
def pruned (a : Artifact) (text : String) : String :=
  match a with
  | .index => text
  | .model => Source.prune text Source.baseClass
  | _ => Source.removeEmptyImport (Source.prune text Source.baseClass)

/-- A rendered text with its line endings, and with the imports it uses. -/
def finish (j : Job) (a : Artifact) (text : String) : Except RenderFault String :=
  (j.normalized text).map (pruned a)

/-- The text of a file of a kind. -/
def text (j : Job) (a : Artifact) (scope : Scope) : Except RenderFault String :=
  ((Template.ofArtifact a).render j.policy
    { scope with
      paths := some (j.layout.importPrefixes a)
      entityFiles := some j.entityFiles } j.platform).bind (j.finish a)

/-- What the template of a kind sees of an entity. -/
def entityScope (p : Projection) : Scope :=
  { entity := some p.entity, relations := some p.oneToMany }

/-- The files of a kind that is made per entity. -/
def entityDrafts (j : Job) (a : Artifact) : List Draft :=
  j.entities.filterMap fun e => (project? e a).map fun p =>
    { directory := j.layout.directory a
      name := j.fileName a e.fileName
      source := e.table
      parser := "typescript"
      text := j.text a (entityScope p) }

/-- What the template of a file for all entities sees. -/
def jointScope (j : Job) : Scope :=
  { entities := some (j.entities.map Source.mentionOf), module := some j.module }

/-- The file of a kind that is made once for all entities. -/
def jointDraft (j : Job) (a : Artifact) : Draft where
  directory := j.layout.directory a
  name := j.fileName a j.module
  source := a.name
  parser := "typescript"
  text := j.text a j.jointScope

/-- The name of the file with the configuration of the compiler. -/
def projectFile : String := "tsconfig.json"

/-- The configuration of the compiler. -/
def projectDraft (j : Job) : Draft where
  directory := j.layout.root
  name := projectFile
  source := "tsconfig"
  parser := "json"
  text := (Template.project.render j.policy {} j.platform).bind j.normalized

/-- The files of a kind. -/
def drafts (j : Job) (a : Artifact) : List Draft :=
  if a.directory?.isSome then j.entityDrafts a else [j.jointDraft a]

end Job

/-! ## Steps -/

/-- A step of a run: its title, the phase it leads to, and its files. A step with a fixed detail is
    reported with it, whatever becomes of its files. -/
structure Step where
  title : String
  phase : Phase
  drafts : List Draft
  detail : Option String := none

/-- What a report calls the step that makes files of a kind. -/
def titleOf : Artifact → String
  | .model => "Models"
  | .dto => "DTOs"
  | .service => "Services"
  | .controller => "Controllers"
  | .module => "Module"
  | .index => "Index"

/-- The phase that is reached when all files of a kind are written. -/
def phaseOf : Artifact → Phase
  | .model => .models
  | .dto => .dtos
  | .service => .services
  | .controller => .controllers
  | .module => .module
  | .index => .index

namespace Step

/-- The report about a step that is through. -/
def report (s : Step) (written unformatted : Nat) : StepReport :=
  match s.detail with
  | some detail => ⟨s.title, true, .zero false, detail⟩
  | none =>
    ⟨s.title, unformatted = 0, .zero false,
     s!"{digitsOf written} files" ++
       (if unformatted = 0 then "" else s!", {digitsOf unformatted} unformatted")⟩

/-- The message about a step that is through. -/
def log (s : Step) (written : Nat) : List Log.Entry :=
  match s.detail with
  | some _ => []
  | none =>
    [⟨.info, .generator, s!"{s.title}: {digitsOf written} file(s) written in 0.000s."⟩]

end Step

/-! ## Plans -/

namespace Job

/-- The step that makes the files of a kind. -/
def kindStep (j : Job) (a : Artifact) : Step :=
  { title := titleOf a, phase := phaseOf a, drafts := j.drafts a }

/-- The step that makes the configuration of the compiler. -/
def projectStep (j : Job) : Step :=
  { title := "Project Config", phase := .project, drafts := [j.projectDraft],
    detail := some projectFile }

/-- The kinds of files, in the order of writing. -/
def kinds (j : Job) : List Artifact :=
  (if j.indexFile then [Artifact.index] else []) ++
    [.model, .service, .controller, .module, .dto]

/-- The steps of a run, in order. -/
def plan (j : Job) : List Step :=
  j.kinds.map j.kindStep ++ (if j.layout.flat then [] else [j.projectStep])

end Job

end Scaffold.Generation
