import Scaffold.Source.Lines

/-!
# `Scaffold.Source.Module` — files that are made once for all entities

## Contents
- **Module.** `moduleLines`: the class that joins models, services and controllers.
- **Index.** `indexLines`: the models exported again from one file.
- **Project.** `projectLines`: the configuration of the compiler.
-/

namespace Scaffold.Source

open Naming (Policy)

/-- What is said of an entity in a file for all: its name, and what its files are called after. -/
structure Mention where
  name : String
  file : String
  deriving DecidableEq, Repr

/-- The imports of an entity's classes. -/
def mentionImports (p : Policy) (models services controllers : String) (m : Mention) : Lines :=
  [importLine (p.localImport (p.modelName m.name)) (models ++ "/" ++ p.fileName .model m.file),
   importLine (p.localImport (p.serviceName m.name)) (services ++ "/" ++ p.fileName .service m.file),
   importLine (p.localImport (p.controllerName m.name))
     (controllers ++ "/" ++ p.fileName .controller m.file)]

/-- The lines of a module; the paths lead to the directories of the other files. -/
def moduleLines (p : Policy) (models services controllers : String) (ms : List Mention)
    (module : String) : Lines :=
  let providers := bracketed (ms.map fun m => p.serviceName m.name)
  [importLine "\x7bModule\x7d" "@nestjs/common",
   importLine "\x7bTypeOrmModule\x7d" "@nestjs/typeorm"] ++
  ms.flatMap (mentionImports p models services controllers) ++
  ["",
   "@Module(\x7b",
   "    imports: [TypeOrmModule.forFeature(" ++
     bracketed (ms.map fun m => p.modelName m.name) ++ ")],",
   "    controllers: " ++ bracketed (ms.map fun m => p.controllerName m.name) ++ ",",
   "    providers: " ++ providers ++ ",",
   "    exports: " ++ providers ++ ",",
   "\x7d)",
   classHead p (p.moduleName module) ++ " \x7b\x7d"]

/-- The line that exports a model again. -/
def reexportLine (p : Policy) (m : Mention) : String :=
  let path := inQuotes ("./" ++ p.fileName .model m.file)
  if p.isDefaultExport then
    "export " ++ braced ("default as " ++ p.modelName m.name) ++ s!" from {path};"
  else s!"export * from {path};"

/-- The lines of the index. -/
def indexLines (p : Policy) (ms : List Mention) : Lines := ms.map (reexportLine p)

/-- The lines of the configuration of the compiler; the marks of properties decide on its checks. -/
def projectLines (p : Policy) : Lines :=
  let flag (b : Bool) := if b then "true" else "false"
  ["\x7b",
   "    \"compilerOptions\": \x7b",
   "        \"module\": \"commonjs\",",
   "        \"declaration\": true,",
   "        \"removeComments\": true,",
   "        \"emitDecoratorMetadata\": true,",
   "        \"experimentalDecorators\": true,",
   "        \"allowSyntheticDefaultImports\": true,",
   "        \"target\": \"es2017\",",
   "        \"sourceMap\": true,",
   "        \"outDir\": \"./dist\",",
   "        \"baseUrl\": \"./\",",
   "        \"incremental\": true,",
   "        \"skipLibCheck\": true,",
   "        \"strictNullChecks\": " ++ flag (p.strictMark ≠ "") ++ ",",
   "        \"strictPropertyInitialization\": " ++ flag (p.strictMark = "!"),
   "    \x7d",
   "\x7d"]

end Scaffold.Source
