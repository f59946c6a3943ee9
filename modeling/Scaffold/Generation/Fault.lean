import Scaffold.Generation.Run
import Scaffold.Schema.Document
import Scaffold.Schema.File

/-!
# `Scaffold.Generation.Fault` — why nothing was generated

## Contents
- **Faults.** `Fault`, with its area, its name and its words.
- **Paths.** `pathText`.
-/

namespace Scaffold.Generation

open Naming (PolicyFault)
open Schema (DocumentFault LoadFault)

/-- Why a run did not succeed. -/
inductive Fault
  | load (fault : LoadFault)
  /-- The options that were to be overridden are no mapping. -/
  | overrides (fault : MappingFault)
  | document (fault : DocumentFault)
  | policy (fault : PolicyFault)
  /-- What is given for a path is a value of another kind. -/
  | notPath (kind : String)
  /-- The place that a path names cannot be told. -/
  | place (failure : Disk.Failure)
  /-- The place for the results has no name that the module could take. -/
  | noModule (results : String)
  /-- The run began and ended early. -/
  | stopped (stop : Stop)

/-- What messages call a value that gives no mapping. -/
def mappingLabel : MappingFault → String
  | .wrongSize _ _ => "ValueError"
  | _ => "TypeError"

/-- The area of a fault of a schema file. -/
def areaOfLoad : LoadFault → Area
  | .missing _ => .system
  | .unreadable f => areaOfFailure f
  | f => if f.isConfiguration then .configuration else .unexpected

namespace Fault

/-- The area of a fault. -/
def area : Fault → Area
  | .load f => areaOfLoad f
  | .overrides _ => .unexpected
  | .document (.unwritable _) => .unexpected
  | .document _ => .configuration
  | .policy (.style f) => if f.cause?.isSome then .unexpected else .configuration
  | .policy (.choice _) => .unexpected
  | .notPath _ => .unexpected
  | .place f => areaOfFailure f
  | .noModule _ => .configuration
  | .stopped s => s.area

/-- What messages call a fault. -/
def label : Fault → String
  | .load f => f.label
  | .overrides f => mappingLabel f
  | .document f => f.label
  | .policy (.style f) => f.label
  | .policy (.choice f) => f.name
  | .notPath _ => "TypeError"
  | .place f => f.label
  | .noModule _ => "ConfigurationError"
  | .stopped s => s.label

/-- The words for a fault. -/
def message : Fault → String
  | .load f => f.message
  | .overrides f => f.message
  | .document f => f.headline
  | .policy f => f.message
  | .notPath kind => s!"expected str, bytes or os.PathLike object, not {kind}"
  | .place f => f.message
  | .noModule results =>
    s!"Results path {quoted results} has no directory name to derive the module from."
  | .stopped s => s.message

end Fault

/-- The text of a path. -/
def pathText : Value → Except Fault String
  | .text s => .ok s
  | v => .error (.notPath v.kind)

end Scaffold.Generation
