import Scaffold.Source.Lines

/-!
# `Scaffold.Source.Service` — the class that reads and writes an entity

An entity is found by its key column; without one the key is a number called `id`.

## Contents
- **Keys.** `serviceKey`.
- **Files.** `serviceLines`.
-/

namespace Scaffold.Source

open Naming (Policy)
open Schema (Column Entity)

/-- The first column of the key. -/
def keyColumn? (e : Entity) : Option Column := (e.columns.filter Column.primary).head?

/-- Name and type of the key. -/
def serviceKey (p : Policy) (e : Entity) : String × String :=
  match keyColumn? e with
  | some c => (p.propertyName c.name, c.type)
  | none => ("id", "number")

/-- The lines of a service; `models` and `dtos` lead to the directories of those files. -/
def serviceLines (p : Policy) (models dtos : String) (e : Entity) : Lines :=
  let model := p.modelName e.name
  let dto := p.dtoName e.name
  let (key, keyType) := serviceKey p e
  let found := braced key ++ s!" as FindOptionsWhere<{model}>"
  [importLine "\x7bInjectable\x7d" "@nestjs/common",
   importLine "\x7bInjectRepository\x7d" "@nestjs/typeorm",
   importLine "\x7bDeepPartial,FindOptionsWhere,Repository\x7d" "typeorm",
   importLine (p.localImport model) (models ++ "/" ++ p.fileName .model e.fileName),
   importLine (p.localImport dto) (dtos ++ "/" ++ p.fileName .dto e.fileName),
   "",
   "@Injectable()",
   classHead p (p.serviceName e.name) ++ " \x7b",
   "    constructor(",
   s!"        @InjectRepository({model})",
   s!"        private readonly repository: Repository<{model}>,",
   "    ) \x7b\x7d",
   "",
   s!"    findAll(): Promise<{model}[]> \x7b",
   "        return this.repository.find();",
   "    \x7d",
   "",
   s!"    findOne({key}: {keyType}, relations: string[] = []): Promise<{model} | null> \x7b",
   "        return this.repository.findOne(\x7b",
   s!"            where: {found},",
   "            relations,",
   "        \x7d);",
   "    \x7d",
   "",
   s!"    create(dto: {dto}): Promise<{model}> \x7b",
   s!"        const entity = this.repository.create(dto as DeepPartial<{model}>);",
   "        return this.repository.save(entity);",
   "    \x7d",
   "",
   s!"    async update({key}: {keyType}, dto: {dto}): Promise<{model} | null> \x7b",
   s!"        await this.repository.update({found}, dto as DeepPartial<{model}>);",
   s!"        return this.findOne({key});",
   "    \x7d",
   "",
   s!"    async remove({key}: {keyType}): Promise<void> \x7b",
   s!"        await this.repository.delete({found});",
   "    \x7d",
   "\x7d"]

end Scaffold.Source
