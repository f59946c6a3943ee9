import Scaffold.Schema.Cardinality

/-!
# `Scaffold.Schema.Entity` — entities of a schema

An entity is a table with its columns, its relations to other entities and its indices.

## Contents
- **Columns.** `Generation`, `Column`.
- **Relations.** `JoinColumn`, `JoinTable`, `Relation`.
- **Entities.** `Index`, `Entity`.
- **Short forms.** `Column.brief`, `Relation.brief`, `Entity.brief`.
-/

namespace Scaffold.Schema

/-- How the values of a column are generated. -/
inductive Generation
  | increment
  | uuid
  deriving DecidableEq, Repr

instance : Choice Generation where
  all := [.increment, .uuid]
  name
    | .increment => "increment"
    | .uuid => "uuid"
  label := "Generation"

/-- A column: `name` and `type` are those of the generated property, `dbType` is the type in the
    database. The default is an expression, and `options` goes to the decorator as it is. -/
structure Column where
  name : String
  type : String
  dbType : String
  primary : Bool
  generated : Option Generation
  default : Option String
  options : Entries
  deriving Repr

/-- A column that refers to another entity, and the column there. -/
structure JoinColumn where
  name : String
  referenced : Option String
  deriving DecidableEq, Repr

/-- A table between two entities. -/
structure JoinTable where
  name : String
  joinColumns : List JoinColumn
  inverseColumns : List JoinColumn
  deriving DecidableEq, Repr

/-- A navigation property from one entity to another; `inverse` is the property that leads back. -/
structure Relation where
  cardinality : Cardinality
  related : String
  field : String
  inverse : Option String
  joinColumns : Option (List JoinColumn)
  joinTable : Option JoinTable
  options : Entries
  deriving Repr

/-- An index over columns. -/
structure Index where
  name : String
  columns : List String
  options : Entries
  deriving Repr

/-- An entity: `name` is its identifier, `fileName` what its files are called after, and `table`
    its table in the database. -/
structure Entity where
  name : String
  fileName : String
  table : String
  database : Option String
  schema : Option String
  columns : List Column
  relations : List Relation
  indices : List Index
  deriving Repr

/-- The column may hold nothing. -/
def Column.nullable (c : Column) : Bool :=
  match c.options.lookup "nullable" with
  | some v => v.truthy
  | none => false

/-- The names of the join columns. -/
def Relation.joinColumnNames (r : Relation) : List String :=
  (r.joinColumns.getD []).map JoinColumn.name

/-- The join columns are given although many entities stand on the other side. -/
def Relation.misplacesColumns (r : Relation) : Bool :=
  !(r.joinColumns.getD []).isEmpty && r.cardinality.isToMany

namespace Entity

/-- The names of the columns that make up the key. -/
def primaryNames (e : Entity) : List String := (e.columns.filter Column.primary).map Column.name

/-- The relations of one cardinality, in order. -/
def relationsOf (e : Entity) (c : Cardinality) : List Relation :=
  e.relations.filter fun r => r.cardinality = c

/-- The entity has columns, but none belongs to its key. -/
def lacksKey (e : Entity) : Bool := !e.columns.isEmpty && !e.columns.any Column.primary

end Entity

/-! ## Short forms -/

/-- Name, type and flags. -/
def Column.brief (c : Column) : String :=
  s!"<Column {c.name} {c.dbType}" ++ (if c.primary then " PK" else "") ++
    (if c.nullable then " NULL" else "") ++ ">"

/-- Name, cardinality and the entity it leads to. -/
def Relation.brief (r : Relation) : String :=
  s!"<Relation {r.field} ({r.cardinality.name}) → {r.related}>"

/-- Name and counts. -/
def Entity.brief (e : Entity) : String :=
  s!"<Entity {e.name} ({Decimal.digitsOf e.columns.length} cols, " ++
    s!"{Decimal.digitsOf e.relations.length} rels)>"

end Scaffold.Schema
