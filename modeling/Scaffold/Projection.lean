import Scaffold.Artifact
import Scaffold.Schema.Entity

/-!
# `Scaffold.Projection` — what each kind of file sees of an entity

A model leaves out the columns of the key, which its base class has. A data transfer object also
leaves out the columns that refer to other entities, and keeps only relations to many of them. The
other kinds see the whole entity.

## Contents
- **Parts.** `oneToMany`, `joinColumnNames`, `plainColumns`.
- **Projections.** `forModel`, `forDto`, `Projection`, `project?`.
-/

namespace Scaffold

open Schema (Column Entity Relation)

namespace Schema.Entity

/-- The relations to many entities that refer back to this one. -/
def oneToMany (e : Entity) : List Relation := e.relationsOf .oneToMany

/-- The columns that refer to other entities. -/
def joinColumnNames (e : Entity) : List String :=
  (e.relationsOf .manyToOne).flatMap Relation.joinColumnNames

/-- The columns that do not belong to the key. -/
def plainColumns (e : Entity) : List Column := e.columns.filter fun c => !c.primary

/-- The entity as its model sees it. -/
def forModel (e : Entity) : Entity := { e with columns := e.plainColumns }

/-- The entity as its data transfer object sees it. -/
def forDto (e : Entity) : Entity :=
  { e with
    columns := e.columns.filter fun c => !c.primary && !e.joinColumnNames.contains c.name
    relations := e.oneToMany }

end Schema.Entity

/-- What a file that is made per entity is made from. -/
structure Projection where
  entity : Entity
  oneToMany : List Relation

/-- The projection for a kind of file; the module and the index have none. -/
def project? (e : Entity) : Artifact → Option Projection
  | .model => some ⟨e.forModel, []⟩
  | .dto => some ⟨e.forDto, []⟩
  | .service => some ⟨e, []⟩
  | .controller => some ⟨e, e.oneToMany⟩
  | .module => none
  | .index => none

end Scaffold
