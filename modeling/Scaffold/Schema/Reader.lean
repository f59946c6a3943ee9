import Scaffold.Schema.Checked
import Scaffold.Schema.Entity
import Scaffold.Log

/-!
# `Scaffold.Schema.Reader` — reading entities from values

## Contents
- **Columns.** `Column.read`: a default that is no text becomes the JSON text of its value.
- **Relations.** `JoinColumn.read`, `JoinTable.read`, `Relation.read`.
- **Entities.** `Index.read`, `Entity.read`: names that are not given are taken from `tscName`.
- **Repetitions.** `repeated`.
-/

namespace Scaffold.Schema

/-- The names that occur more than once, sorted, each once. -/
def repeated (names : List String) : List String :=
  ((names.filter fun n => 1 < names.count n).eraseDups).mergeSort (· ≤ ·)

/-! ## Columns -/

/-- An expression. A value that is no text is written as JSON. -/
def readExpression : Value → Checked (Option String)
  | .null => .valid none
  | .text s => .valid (some s)
  | v =>
    match Json.write .spaced v with
    | .ok s => .valid (some s)
    | .error cause => Checked.unwritable cause

/-- The fields of a column. -/
def Column.keys : List Key :=
  [⟨"tscName", "tsc_name"⟩, ⟨"tscType", "tsc_type"⟩, .single "type", .single "primary",
   .single "generated", .single "default", .single "options"]

/-- A column. -/
def Column.read : Value → Checked Column :=
  readRecord "Column" Column.keys fun es =>
    Column.mk <$> readField es ⟨"tscName", "tsc_name"⟩ readName none
      <*> readField es ⟨"tscType", "tsc_type"⟩ readText (some "string")
      <*> readField es (.single "type") readText (some "varchar")
      <*> readField es (.single "primary") readBool (some false)
      <*> readField es (.single "generated") (readOptional readLiteral) (some none)
      <*> readField es (.single "default") readExpression (some none)
      <*> readField es (.single "options") readOptions (some [])

/-! ## Relations -/

/-- The fields of a join column. -/
def JoinColumn.keys : List Key :=
  [.single "name", ⟨"referencedColumnName", "referenced_column_name"⟩]

/-- A join column. -/
def JoinColumn.read : Value → Checked JoinColumn :=
  readRecord "JoinColumnOption" JoinColumn.keys fun es =>
    JoinColumn.mk <$> readField es (.single "name") readName none
      <*> readField es ⟨"referencedColumnName", "referenced_column_name"⟩ (readOptional readText)
        (some none)

/-- The fields of a join table. -/
def JoinTable.keys : List Key :=
  [.single "name", ⟨"joinColumns", "join_columns"⟩, ⟨"inverseJoinColumns", "inverse_join_columns"⟩]

/-- A join table. -/
def JoinTable.read : Value → Checked JoinTable :=
  readRecord "JoinTableOption" JoinTable.keys fun es =>
    JoinTable.mk <$> readField es (.single "name") readName none
      <*> readField es ⟨"joinColumns", "join_columns"⟩ (readList JoinColumn.read) (some [])
      <*> readField es ⟨"inverseJoinColumns", "inverse_join_columns"⟩ (readList JoinColumn.read)
        (some [])

/-- The fields of a relation. -/
def Relation.keys : List Key :=
  [⟨"relationType", "relation_type"⟩, ⟨"relatedTable", "related_table"⟩,
   ⟨"fieldName", "field_name"⟩, ⟨"relatedField", "related_field"⟩,
   ⟨"joinColumnOptions", "join_column_options"⟩, ⟨"joinTableOptions", "join_table_options"⟩,
   ⟨"relationOptions", "relation_options"⟩]

/-- The complaint about join columns of a relation to many entities. -/
def Relation.complaint? (r : Relation) : Option String :=
  if r.misplacesColumns then
    some (s!"Relation '{r.field}' is {r.cardinality.name}; " ++
      "joinColumnOptions are only valid on a to-one owning side.")
  else none

/-- A relation. -/
def Relation.read (v : Value) : Checked Relation :=
  (readRecord "Relation" Relation.keys (fun es =>
    Relation.mk <$> readField es ⟨"relationType", "relation_type"⟩ readChoice none
      <*> readField es ⟨"relatedTable", "related_table"⟩ readName none
      <*> readField es ⟨"fieldName", "field_name"⟩ readName none
      <*> readField es ⟨"relatedField", "related_field"⟩ (readOptional readText) (some none)
      <*> readField es ⟨"joinColumnOptions", "join_column_options"⟩
        (readOptional (readList JoinColumn.read)) (some none)
      <*> readField es ⟨"joinTableOptions", "join_table_options"⟩ (readOptional JoinTable.read)
        (some none)
      <*> readField es ⟨"relationOptions", "relation_options"⟩ readOptions (some [])) v).ensure
    Relation.complaint?

/-! ## Entities -/

/-- The fields of an index. -/
def Index.keys : List Key := [.single "name", .single "columns", .single "options"]

/-- An index. It covers at least one column. -/
def Index.read : Value → Checked Index :=
  readRecord "EntityIndex" Index.keys fun es =>
    Index.mk <$> readField es (.single "name") readName none
      <*> readField es (.single "columns") (readNonempty readText) none
      <*> readField es (.single "options") readOptions (some [])

/-- The complaint about columns of one name. -/
def columnsComplaint? (cs : List Column) : Option String :=
  match repeated (cs.map Column.name) with
  | [] => none
  | names => some ("Duplicate column names: " ++ quotedList names)

/-- Columns, all of different names. -/
def readColumns (v : Value) : Checked (List Column) :=
  (readList Column.read v).ensure columnsComplaint?

/-- The fields of an entity. -/
def Entity.keys : List Key :=
  [⟨"tscName", "tsc_name"⟩, ⟨"fileName", "file_name"⟩, ⟨"sqlName", "sql_name"⟩,
   .single "database", ⟨"schema", "schema_name"⟩, .single "columns", .single "relations",
   .single "indices"]

/-- A value for a field that has neither spelling. -/
def supply (k : Key) (v : Value) (es : Entries) : Entries :=
  if (k.find? es).isSome then es else es.put (.text k.snake) v

/-- The names of file and table, taken from the name of the entity where they are not given. -/
def supplyNames (v : Value) : Value :=
  match v.entries? with
  | some es =>
    match Key.find? ⟨"tscName", "tsc_name"⟩ es with
    | none => v
    | some (_, .null) => v
    | some (_, name) =>
      .map (supply ⟨"sqlName", "sql_name"⟩ name (supply ⟨"fileName", "file_name"⟩ name es))
  | none => v

/-- An entity. -/
def Entity.read (v : Value) : Checked Entity :=
  readRecord "Entity" Entity.keys (fun es =>
    Entity.mk <$> readField es ⟨"tscName", "tsc_name"⟩ readName none
      <*> readField es ⟨"fileName", "file_name"⟩ readName none
      <*> readField es ⟨"sqlName", "sql_name"⟩ readName none
      <*> readField es (.single "database") (readOptional readText) (some none)
      <*> readField es ⟨"schema", "schema_name"⟩ (readOptional readText) (some none)
      <*> readField es (.single "columns") readColumns (some [])
      <*> readField es (.single "relations") (readList Relation.read) (some [])
      <*> readField es (.single "indices") (readList Index.read) (some [])) (supplyNames v)

/-- The warning about an entity without a key. -/
def Entity.warnings (e : Entity) : List Log.Entry :=
  if e.lacksKey then
    [⟨.warning, .models, s!"Entity '{e.table}' has no primary column; its model will rely " ++
      "entirely on the shared base class."⟩]
  else []

end Scaffold.Schema
