import Scaffold.Choice

/-!
# `Scaffold.Artifact` — the kinds of generated files

## Contents
- **Kinds.** `Artifact`, in the order in which their directories are made.
- **Names.** `Artifact.classSuffix?`, `Artifact.fileSuffix`, `Artifact.directory?`.
-/

namespace Scaffold

/-- The kinds of generated files. The first four are made once per entity. -/
inductive Artifact
  | model
  | dto
  | service
  | controller
  | module
  | index
  deriving DecidableEq, Repr

instance : Choice Artifact where
  all := [.model, .dto, .service, .controller, .module, .index]
  name
    | .model => "model"
    | .dto => "dto"
    | .service => "service"
    | .controller => "controller"
    | .module => "module"
    | .index => "index"
  label := "ArtifactType"

namespace Artifact

/-- The name of a kind. -/
def name (a : Artifact) : String := Choice.name a

/-- What the classes of a kind end with; the index declares none. -/
def classSuffix? : Artifact → Option String
  | .model => some "Model"
  | .dto => some "Dto"
  | .service => some "Service"
  | .controller => some "Controller"
  | .module => some "Module"
  | .index => none

/-- What the file names of a kind end with, before the extension. -/
def fileSuffix : Artifact → String
  | .index => ""
  | a => "." ++ a.name

/-- The directory of a kind that is made once per entity. -/
def directory? : Artifact → Option String
  | .model => some "models"
  | .dto => some "dtos"
  | .service => some "services"
  | .controller => some "controllers"
  | _ => none

end Artifact

end Scaffold
