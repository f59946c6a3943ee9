import Scaffold.Source.Service

/-!
# `Scaffold.Source.Controller` — the class that answers requests for an entity

## Contents
- **Keys.** `controllerKey`: a key that is a number is converted.
- **Relations.** `routeLines`.
- **Files.** `controllerLines`.
-/

namespace Scaffold.Source

open Naming (Policy)
open Schema (Entity Relation)

/-- The key as it is handed to the service. -/
def controllerKey (e : Entity) : String :=
  match keyColumn? e with
  | some c => if c.type = "number" then "+id" else "id"
  | none => "+id"

/-- The lines of the route of a relation, a blank line in front. -/
def routeLines (p : Policy) (key : String) (r : Relation) : Lines :=
  let name := p.propertyName r.field
  ["",
   s!"    @Get(\":id/{name}\")",
   "    async " ++ p.propertyName ("find_" ++ r.field) ++ "(@Param(\"id\") id: string) \x7b",
   s!"        const found = await this.service.findOne({key}, [\"{name}\"]);",
   s!"        return found?.{name};",
   "    \x7d"]

/-- The lines of a controller; `services` and `dtos` lead to the directories of those files. -/
def controllerLines (p : Policy) (services dtos : String) (e : Entity) (relations : List Relation) :
    Lines :=
  let service := p.serviceName e.name
  let dto := p.dtoName e.name
  let key := controllerKey e
  [importLine "\x7bController,Get,Post,Put,Delete,Body,Param\x7d" "@nestjs/common",
   importLine (p.localImport service) (services ++ "/" ++ p.fileName .service e.fileName),
   importLine (p.localImport dto) (dtos ++ "/" ++ p.fileName .dto e.fileName),
   "",
   s!"@Controller(\"{e.table}\")",
   classHead p (p.controllerName e.name) ++ " \x7b",
   s!"    constructor(private readonly service: {service}) \x7b\x7d",
   "",
   "    @Get()",
   "    findAll() \x7b",
   "        return this.service.findAll();",
   "    \x7d",
   "",
   "    @Get(\":id\")",
   "    findOne(@Param(\"id\") id: string) \x7b",
   s!"        return this.service.findOne({key});",
   "    \x7d"] ++
  relations.flatMap (routeLines p key) ++
  ["",
   "    @Post()",
   s!"    create(@Body() dto: {dto}) \x7b",
   "        return this.service.create(dto);",
   "    \x7d",
   "",
   "    @Put(\":id\")",
   s!"    update(@Param(\"id\") id: string, @Body() dto: {dto}) \x7b",
   s!"        return this.service.update({key}, dto);",
   "    \x7d",
   "",
   "    @Delete(\":id\")",
   "    remove(@Param(\"id\") id: string) \x7b",
   s!"        return this.service.remove({key});",
   "    \x7d",
   "\x7d"]

end Scaffold.Source
