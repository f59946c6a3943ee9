import Scaffold.Source.Lines

/-!
# `Scaffold.Source.Model` — the class of an entity with its mapping to the database

## Contents
- **Indices.** `indexLine`, `entityLine`.
- **Columns.** `columnLines`.
- **Relations.** `relationLines`.
- **Files.** `modelLines`.
-/

namespace Scaffold.Source

open Naming (Policy literal)
open Schema (Column Entity Index JoinColumn JoinTable Relation)
open Json (Unwritable)

/-- Options of a decorator as its last argument, nothing if there are none. -/
def optionsArgument (options : Entries) : Except Unwritable String :=
  if options.isEmpty then .ok "" else (literal (.map options)).map fun s => ", " ++ braced s

/-- The text, if there is one and it is not empty. -/
def filled? : Option String → Option String
  | some s => if s = "" then none else some s
  | none => none

/-! ## Indices -/

/-- The decorator of an index. -/
def indexLine (p : Policy) (i : Index) : Except Unwritable String :=
  (optionsArgument i.options).map fun options =>
    s!"@Index(\"{i.name}\", " ++ bracketed (i.columns.map fun c => inQuotes (p.propertyName c)) ++
      options ++ ")"

/-- The decorator of the class: its table, with schema and database where they are given. -/
def entityLine (e : Entity) : String :=
  let parts :=
    ((filled? e.schema).map fun s => s!"schema: \"{s}\"").toList ++
    ((filled? e.database).map fun d => s!"database: \"{d}\"").toList
  s!"@Entity(\"{e.table}\"" ++
    (if parts.isEmpty then "" else ", " ++ braced (Text.joinWith ", " parts)) ++ ")"

/-! ## Columns -/

/-- The characters of HTML that a quoted default holds escaped. -/
def escapeHtml (c : Char) : List Char :=
  if c = '<' then "\\u003c".toList
  else if c = '>' then "\\u003e".toList
  else if c = '&' then "\\u0026".toList
  else if c = '\x27' then "\\u0027".toList
  else [c]

/-- A default as a text literal of ASCII. -/
def defaultLiteral (s : String) : String :=
  String.ofList ((Json.writeString true s).flatMap escapeHtml)

/-- The last argument of the decorator of a column: its options, then its default. -/
def columnArgument (c : Column) : Except Unwritable String :=
  if c.options.isEmpty && c.default.isNone then .ok ""
  else (literal (.map c.options)).map fun options =>
    let default := match c.default with
      | none => ""
      | some d => (if c.options.isEmpty then "" else ",") ++ "default: () => " ++ defaultLiteral d
    ", " ++ braced (options ++ default)

/-- The declaration of a property. -/
def propertyLine (p : Policy) (name type : String) : String :=
  "    " ++ p.visibilityWord ++ p.propertyName name ++ p.strictMark ++ ": " ++ type ++ ";"

/-- The type of a column's property. -/
def columnType (c : Column) : String := c.type ++ (if c.nullable then " | null" else "")

/-- The lines of a column, a blank line in front. -/
def columnLines (p : Policy) (c : Column) : Except Unwritable Lines :=
  (columnArgument c).map fun argument =>
    [""] ++ (c.generated.map fun g => s!"    @Generated(\"{Choice.name g}\")").toList ++
      [s!"    @Column(\"{c.dbType}\"{argument})", propertyLine p c.name (columnType c)]

/-! ## Relations -/

/-- A join column as an object. -/
def joinColumnObject (j : JoinColumn) : String :=
  braced (s!"name: \"{j.name}\"" ++
    (match filled? j.referenced with
      | some r => s!", referencedColumnName: \"{r}\""
      | none => ""))

/-- Join columns as a list of objects. -/
def joinColumnList (js : List JoinColumn) : String := bracketed (js.map joinColumnObject)

/-- The decorator of join columns, if there are any. -/
def joinColumnLines (r : Relation) : Lines :=
  let js := r.joinColumns.getD []
  if js.isEmpty then [] else ["    @JoinColumn(" ++ joinColumnList js ++ ")"]

/-- Join columns of a table under a name, if there are any. -/
def tablePart (name : String) (js : List JoinColumn) : String :=
  if js.isEmpty then "" else s!", {name}: " ++ joinColumnList js

/-- The decorator of a join table. -/
def joinTableLine (t : JoinTable) : String :=
  "    @JoinTable(" ++
    braced (s!"name: \"{t.name}\"" ++ tablePart "joinColumns" t.joinColumns ++
      tablePart "inverseJoinColumns" t.inverseColumns) ++ ")"

/-- The decorator of a relation. -/
def relationLine (p : Policy) (r : Relation) : Except Unwritable String :=
  (optionsArgument r.options).map fun options =>
    s!"    @{r.cardinality.name}(() => {p.modelName r.related}" ++
      (match filled? r.inverse with
        | some i => s!", (related) => related.{p.propertyName i}"
        | none => "") ++ options ++ ")"

/-- The lines of a relation, a blank line in front. -/
def relationLines (p : Policy) (r : Relation) : Except Unwritable Lines :=
  (relationLine p r).map fun decorator =>
    ["", decorator] ++ joinColumnLines r ++ (r.joinTable.map joinTableLine).toList ++
      [propertyLine p r.field (p.relationType (p.modelName r.related) r.cardinality)]

/-! ## Files -/

/-- The decorators that a model may use. -/
def modelDecorators : String :=
  "\x7bIndex,Entity,Column,Generated,OneToOne,OneToMany,ManyToOne,ManyToMany,JoinColumn,JoinTable," ++
    "BaseEntity\x7d"

/-- The lines of a model; `common` leads to the directory of its base class. -/
def modelLines (p : Policy) (common : String) (files : EntityFiles) (e : Entity) :
    Except Unwritable Lines := do
  let indices ← e.indices.mapM (indexLine p)
  let columns ← e.columns.mapM (columnLines p)
  let relations ← e.relations.mapM (relationLines p)
  return [importLine modelDecorators "typeorm",
      importLine "\x7bBaseModel\x7d" (common ++ "/base.model")] ++
    relatedImports p files .model p.modelName e ++ [""] ++ indices ++
    [entityLine e, classHead p (p.modelName e.name) ++ " extends BaseModel \x7b"] ++
    columns.flatten ++ relations.flatten ++ ["\x7d"]

end Scaffold.Source
