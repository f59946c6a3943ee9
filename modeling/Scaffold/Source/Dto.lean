import Scaffold.Source.Lines

/-!
# `Scaffold.Source.Dto` — the class in which the data of an entity is sent

## Contents
- **Members.** `dtoColumnLines`, `dtoRelationLines`.
- **Files.** `dtoLines`.
-/

namespace Scaffold.Source

open Naming (Policy)
open Schema (Column Entity Relation)

/-- A column need not be sent: it may hold nothing, or the database fills it. -/
def isOptional (c : Column) : Bool := c.nullable || c.default.isSome || c.generated.isSome

/-- The lines of a column, a blank line in front. -/
def dtoColumnLines (p : Policy) (c : Column) : Lines :=
  let front := "    " ++ p.visibilityWord ++ p.propertyName c.name
  if isOptional c then
    ["", "    @ApiPropertyOptional()",
      front ++ "?: " ++ c.type ++ (if c.nullable then " | null" else "") ++ ";"]
  else ["", "    @ApiProperty()", front ++ p.strictMark ++ ": " ++ c.type ++ ";"]

/-- The lines of a relation, a blank line in front. -/
def dtoRelationLines (p : Policy) (r : Relation) : Lines :=
  let type := p.dtoName r.related
  ["", "    @ApiPropertyOptional(" ++ braced s!"type: () => [{type}]" ++ ")",
    "    " ++ p.visibilityWord ++ p.propertyName r.field ++ "?: " ++ type ++ "[];"]

/-- The lines of a data transfer object. -/
def dtoLines (p : Policy) (files : EntityFiles) (e : Entity) : Lines :=
  [importLine "\x7bApiProperty,ApiPropertyOptional\x7d" "@nestjs/swagger"] ++
    relatedImports p files .dto p.dtoName e ++
    ["", classHead p (p.dtoName e.name) ++ " \x7b"] ++
    e.columns.flatMap (dtoColumnLines p) ++ e.relations.flatMap (dtoRelationLines p) ++ ["\x7d"]

end Scaffold.Source
