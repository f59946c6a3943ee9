import Scaffold.Proofs.Layout
import Scaffold.Proofs.Results
import Scaffold.Proofs.Source.Finished
import Scaffold.Proofs.Source.Parts
import Scaffold.Source.Template

/-!
# `Scaffold.Proofs.Source.Files` — the lines of files as statements and declarations

Every file but the index begins with names that are taken from a package. Statements follow, then a
blank line, and then the declaration of a class behind its decorator. Each kind of file is brought
into that form (`serviceLines_eq` and its siblings); the declaration is told from what stands around
it and read back (`standing_headLine`, `declaration?_headLine`).

## Contents
- **Statements.** `Statement.toClass`, `importLine_localImport`, `mentionStatements`,
  `relatedStatements`, `Statement.reexport`.
- **Declarations.** `headLine`, `standing_headLine`, `declaration?_headLine`.
- **Lines.** `serviceLines_eq`, `controllerLines_eq`, `moduleLines_eq`, `indexLines_eq`,
  `dtoLines_eq`, `modelLines_eq`.
-/

namespace Scaffold.Source

open Naming (Policy Quotable)
open Schema (Entity Relation)
open Text (OneLine dropPat? isBlank)

variable (p : Policy)

/-! ## Statements -/

/-- The statement that imports a class, as classes are exported. -/
def Statement.toClass (symbol path : String) : Statement :=
  ⟨.importing p.isDefaultExport symbol, path⟩

/-- The statement that exports a model again. -/
def Statement.reexport (m : Mention) : Statement :=
  ⟨.exporting p.isDefaultExport (p.modelName m.name), "./" ++ p.fileName .model m.file⟩

/-- The statements about the classes of an entity. -/
def mentionStatements (models services controllers : String) (m : Mention) : List Statement :=
  [.toClass p (p.modelName m.name) (models ++ "/" ++ p.fileName .model m.file),
   .toClass p (p.serviceName m.name) (services ++ "/" ++ p.fileName .service m.file),
   .toClass p (p.controllerName m.name) (controllers ++ "/" ++ p.fileName .controller m.file)]

/-- The statements about the classes of related entities. -/
def relatedStatements (files : EntityFiles) (a : Artifact) (className : String → String)
    (e : Entity) : List Statement :=
  (relatedNames e).map fun r =>
    .toClass p (className r) ("./" ++ p.fileName a (fileFor files r))

theorem importLine_eq (clause path : String) :
    importLine clause path = "import " ++ clause ++ " from \"" ++ path ++ "\";" := rfl

theorem importLine_taken (names package : String) :
    importLine ("\x7b" ++ names ++ "\x7d") package = (taken names package).line := by
  apply String.toList_injective
  rw [line_taken, importLine_eq]
  simp

theorem importLine_localImport (symbol path : String) :
    importLine (p.localImport symbol) path = (Statement.toClass p symbol path).line := by
  cases hp : p.isDefaultExport with
  | false =>
      have hclause : p.localImport symbol = "\x7b" ++ symbol ++ "\x7d" := by
        simp [Naming.Policy.localImport, hp]
      have hstatement : Statement.toClass p symbol path = taken symbol path := by
        simp [Statement.toClass, Clause.importing, taken, hp]
      rw [hclause, hstatement, importLine_taken]
  | true =>
      have hclause : p.localImport symbol = symbol := by simp [Naming.Policy.localImport, hp]
      have hstatement : Statement.toClass p symbol path = ⟨.default symbol, path⟩ := by
        simp [Statement.toClass, Clause.importing, hp]
      have hline : (⟨.default symbol, path⟩ : Statement).line =
          "import " ++ symbol ++ " from " ++ "\"" ++ path ++ "\";" := rfl
      rw [hclause, hstatement, hline, importLine_eq]
      simp only [String.append_assoc]
      rfl

theorem mentionImports_eq (models services controllers : String) (m : Mention) :
    mentionImports p models services controllers m =
      (mentionStatements p models services controllers m).map Statement.line := by
  unfold mentionImports mentionStatements
  simp only [importLine_localImport, List.map_cons, List.map_nil]

theorem relatedImports_eq (files : EntityFiles) (a : Artifact) (className : String → String)
    (e : Entity) : relatedImports p files a className e =
      (relatedStatements p files a className e).map Statement.line := by
  unfold relatedImports relatedStatements
  rw [List.map_map]
  exact List.map_congr_left fun r _ => importLine_localImport p _ _

theorem reexportLine_eq (m : Mention) : reexportLine p m = (Statement.reexport p m).line := by
  have hclose : "\";" = "\"" ++ ";" := rfl
  cases hp : p.isDefaultExport with
  | false =>
      have hstatement : Statement.reexport p m =
          ⟨.everything, "./" ++ p.fileName .model m.file⟩ := by simp [Statement.reexport, Clause.exporting, hp]
      unfold reexportLine
      rw [hstatement, if_neg (by simp [hp])]
      show "export * from " ++ ("\"" ++ ("./" ++ p.fileName .model m.file) ++ "\"") ++ ";" =
        "export * from " ++ "\"" ++ ("./" ++ p.fileName .model m.file) ++ "\";"
      rw [hclose]
      simp only [String.append_assoc]
  | true =>
      have hstatement : Statement.reexport p m =
          ⟨.defaultAs (p.modelName m.name), "./" ++ p.fileName .model m.file⟩ := by
        simp [Statement.reexport, Clause.exporting, hp]
      have hfront : "export \x7b default as " = "export " ++ ("\x7b " ++ "default as ") := rfl
      have hback : " \x7d from " = " \x7d" ++ " from " := rfl
      unfold reexportLine
      rw [hstatement, if_pos hp]
      show "export " ++ ("\x7b " ++ ("default as " ++ p.modelName m.name) ++ " \x7d") ++
          (" from " ++ ("\"" ++ ("./" ++ p.fileName .model m.file) ++ "\"") ++ ";") =
        "export \x7b default as " ++ p.modelName m.name ++ " \x7d from " ++ "\"" ++
          ("./" ++ p.fileName .model m.file) ++ "\";"
      rw [hclose, hfront, hback]
      simp only [String.append_assoc]

/-! ## Declarations -/

/-- The line that declares a class in a file of a kind. -/
def headLine (a : Artifact) (name : String) : String :=
  classHead p name ++ (if a = .model then " extends BaseModel \x7b" else " \x7b")

theorem quotable_classHead : Quotable (classHead p "") := by
  cases hp : p.isDefaultExport with
  | false =>
      have hhead : classHead p "" = "export class " := by simp [classHead, hp]
      rw [hhead]
      decide
  | true =>
      have hhead : classHead p "" = "export default class " := by simp [classHead, hp]
      rw [hhead]
      decide

theorem standing_brace {t : String} (ht : Quotable t) {c : Char}
    (hlast : t.toList.getLast? = some c) (hc : isBlank c = false) (hword : c ≠ 't') :
    Standing (t ++ " \x7b").toList := by
  obtain ⟨front, hfront⟩ := List.getLast?_eq_some_iff.mp hlast
  have htext : (t ++ " \x7b").toList = (front ++ c :: [' ']) ++ ['\x7b'] := by
    rw [String.toList_append, hfront]
    simp
  -- the only brace of the line is its last character
  have hfree : ∀ d ∈ front ++ c :: [' '], d ≠ '\x7b' ∧ d ≠ '\n' ∧ d ≠ '\r' := by
    intro d hd
    have hmem : d ∈ t.toList ∨ d = ' ' := by
      rw [hfront]
      simpa [or_assoc] using hd
    rcases hmem with hmem | rfl
    · refine ⟨?_, ?_, ?_⟩ <;> rintro rfl <;> exact ht _ hmem (by decide)
    · decide
  rw [htext]
  refine ⟨?_, by simp, ?_⟩
  · exact OneLine.append (fun d hd => (hfree d hd).2) (by decide)
  · refine inert_of_brace (fun hm => (hfree _ hm).1 rfl) ?_
    rw [lastSolid?_append hc (by decide)]
    simpa using hword

/-- **The declaration of a class is told from what stands around it.** -/
theorem standing_headLine {a : Artifact} (ha : a ∈ Layout.entityKinds) {base suffix : String}
    (hsuffix : a.classSuffix? = some suffix) (hbase : Quotable base) :
    Standing (headLine p a (base ++ suffix)).toList := by
  have hhead : classHead p (base ++ suffix) = classHead p "" ++ base ++ suffix := by
    apply String.toList_injective
    rw [classHead_eq]
    simp
  have hfront : Quotable (classHead p "" ++ base) := (quotable_classHead p).append hbase
  have hlast : ∀ (front back : String) (c : Char), back.toList.getLast? = some c →
      (front ++ back).toList.getLast? = some c := by
    intro front back c hc
    rw [String.toList_append, List.getLast?_append, hc]
    rfl
  unfold headLine
  rw [hhead]
  rcases Layout.cases_entityKind ha with rfl | rfl | rfl | rfl <;> cases hsuffix
  · have hend : " extends BaseModel \x7b" = " extends BaseModel" ++ " \x7b" := rfl
    rw [if_pos rfl, hend, ← String.append_assoc]
    exact standing_brace ((hfront.append (by decide)).append (by decide)) (hlast _ _ 'l' rfl)
      (by decide) (by decide)
  · exact standing_brace (hfront.append (by decide)) (hlast _ _ 'o' rfl) (by decide) (by decide)
  · exact standing_brace (hfront.append (by decide)) (hlast _ _ 'e' rfl) (by decide) (by decide)
  · exact standing_brace (hfront.append (by decide)) (hlast _ _ 'r' rfl) (by decide) (by decide)

theorem declaration?_headLine {a : Artifact} (ha : a ∈ Layout.entityKinds) {base suffix : String}
    (hsuffix : a.classSuffix? = some suffix) :
    declaration? (headLine p a (base ++ suffix)).toList =
      some (p.isDefaultExport, base ++ suffix) := by
  -- no suffix of a class ends as the name of the base class does
  have hend : ∀ (front : String) (d : Char), d ≠ 'l' → ∀ suffix : String,
      suffix.toList.getLast? = some d →
      dropEnd? " extends BaseModel".toList (front ++ suffix).toList = none := by
    intro front d hd suffix hlast
    have hreverse : ∃ r, (front ++ suffix).toList.reverse = d :: r := by
      rw [String.toList_append, List.reverse_append]
      rw [← List.head?_reverse] at hlast
      obtain ⟨r, hr⟩ := List.head?_eq_some_iff.mp hlast
      exact ⟨_, by rw [hr, List.cons_append]⟩
    obtain ⟨r, hr⟩ := hreverse
    have hword : " extends BaseModel".toList.reverse = 'l' :: "edoMesaB sdnetxe ".toList := by
      decide
    unfold dropEnd?
    rw [hr, hword, dropPat?, if_neg (Ne.symm hd)]
    rfl
  unfold headLine
  rcases Layout.cases_entityKind ha with rfl | rfl | rfl | rfl <;> cases hsuffix
  · exact declaration?_modelHead p _
  · exact declaration?_classHead p (hend base 'o' (by decide) _ rfl)
  · exact declaration?_classHead p (hend base 'e' (by decide) _ rfl)
  · exact declaration?_classHead p (hend base 'r' (by decide) _ rfl)

/-! ## Lines -/

theorem Taken.injectable : Taken "Injectable" "@nestjs/common" := ⟨by decide, by decide, by decide⟩

theorem Taken.controller :
    Taken "Controller,Get,Post,Put,Delete,Body,Param" "@nestjs/common" :=
  ⟨by decide, by decide, by decide⟩

theorem Taken.module : Taken "Module" "@nestjs/common" := ⟨by decide, by decide, by decide⟩

theorem Taken.dto : Taken "ApiProperty,ApiPropertyOptional" "@nestjs/swagger" :=
  ⟨by decide, by decide, by decide⟩

/-- The decorators of models. -/
def modelNames : String :=
  "Index,Entity,Column,Generated,OneToOne,OneToMany,ManyToOne,ManyToMany,JoinColumn,JoinTable," ++
    "BaseEntity"

theorem Taken.model : Taken modelNames "typeorm" := ⟨by decide, by decide, by decide⟩

/-- The statements of a service. -/
def serviceStatements (models dtos : String) (e : Entity) : List Statement :=
  [taken "InjectRepository" "@nestjs/typeorm",
   taken "DeepPartial,FindOptionsWhere,Repository" "typeorm",
   .toClass p (p.modelName e.name) (models ++ "/" ++ p.fileName .model e.fileName),
   .toClass p (p.dtoName e.name) (dtos ++ "/" ++ p.fileName .dto e.fileName)]

theorem serviceLines_eq (models dtos : String) (e : Entity) :
    ∃ rest, serviceLines p models dtos e =
      (taken "Injectable" "@nestjs/common").line ::
        ((serviceStatements p models dtos e).map Statement.line ++ "" :: ("@Injectable(" ++ ")") ::
          headLine p .service (p.serviceName e.name) :: rest) := by
  have hfirst := importLine_taken "Injectable" "@nestjs/common"
  have hsecond := importLine_taken "InjectRepository" "@nestjs/typeorm"
  have hthird := importLine_taken "DeepPartial,FindOptionsWhere,Repository" "typeorm"
  have hmodel := importLine_localImport p (p.modelName e.name)
    (models ++ "/" ++ p.fileName .model e.fileName)
  have hdto := importLine_localImport p (p.dtoName e.name)
    (dtos ++ "/" ++ p.fileName .dto e.fileName)
  unfold serviceStatements
  simp only [List.map_cons, List.map_nil, ← hfirst, ← hsecond, ← hthird, ← hmodel, ← hdto]
  exact ⟨_, rfl⟩

/-- The statements of a controller. -/
def controllerStatements (services dtos : String) (e : Entity) : List Statement :=
  [.toClass p (p.serviceName e.name) (services ++ "/" ++ p.fileName .service e.fileName),
   .toClass p (p.dtoName e.name) (dtos ++ "/" ++ p.fileName .dto e.fileName)]

theorem controllerLines_eq (services dtos : String) (e : Entity) (relations : List Relation) :
    ∃ decorator rest, (decorator ++ ")").toList.head? ≠ some '\n' ∧
      controllerLines p services dtos e relations =
        (taken "Controller,Get,Post,Put,Delete,Body,Param" "@nestjs/common").line ::
          ((controllerStatements p services dtos e).map Statement.line ++
            "" :: (decorator ++ ")") :: headLine p .controller (p.controllerName e.name) :: rest) := by
  have hfirst := importLine_taken "Controller,Get,Post,Put,Delete,Body,Param" "@nestjs/common"
  have hservice := importLine_localImport p (p.serviceName e.name)
    (services ++ "/" ++ p.fileName .service e.fileName)
  have hdto := importLine_localImport p (p.dtoName e.name)
    (dtos ++ "/" ++ p.fileName .dto e.fileName)
  have hdecorator : s!"@Controller(\"{e.table}\")" = "@Controller(\"" ++ e.table ++ "\"" ++ ")" := by
    have hend : "\")" = "\"" ++ ")" := rfl
    show "@Controller(\"" ++ e.table ++ "\")" = _
    rw [hend, ← String.append_assoc]
  have hlines : ∃ rest, controllerLines p services dtos e relations =
      importLine "\x7bController,Get,Post,Put,Delete,Body,Param\x7d" "@nestjs/common" ::
        importLine (p.localImport (p.serviceName e.name))
          (services ++ "/" ++ p.fileName .service e.fileName) ::
        importLine (p.localImport (p.dtoName e.name))
          (dtos ++ "/" ++ p.fileName .dto e.fileName) ::
        "" :: s!"@Controller(\"{e.table}\")" ::
        headLine p .controller (p.controllerName e.name) :: rest := ⟨_, rfl⟩
  obtain ⟨rest, hlines⟩ := hlines
  refine ⟨"@Controller(\"" ++ e.table ++ "\"", rest, by simp, ?_⟩
  unfold controllerStatements
  simp only [List.map_cons, List.map_nil, ← hfirst, ← hservice, ← hdto]
  rw [← hdecorator]
  exact hlines

theorem moduleLines_eq (models services controllers : String) (ms : List Mention) (module : String) :
    ∃ rest, moduleLines p models services controllers ms module =
      (taken "Module" "@nestjs/common").line ::
        ((taken "TypeOrmModule" "@nestjs/typeorm" ::
            ms.flatMap (mentionStatements p models services controllers)).map Statement.line ++
          "" :: "@Module(\x7b" :: rest) := by
  have hfirst := importLine_taken "Module" "@nestjs/common"
  have hsecond := importLine_taken "TypeOrmModule" "@nestjs/typeorm"
  have himports : (ms.flatMap (mentionStatements p models services controllers)).map Statement.line =
      ms.flatMap (mentionImports p models services controllers) := by
    rw [List.map_flatMap]
    exact List.flatMap_congr fun m _ => (mentionImports_eq p models services controllers m).symm
  rw [List.map_cons, himports, ← hfirst, ← hsecond]
  exact ⟨_, rfl⟩

theorem indexLines_eq (ms : List Mention) :
    indexLines p ms = (ms.map (Statement.reexport p)).map Statement.line := by
  unfold indexLines
  rw [List.map_map]
  exact List.map_congr_left fun m _ => reexportLine_eq p m

theorem dtoLines_eq (files : EntityFiles) (e : Entity) :
    ∃ rest, dtoLines p files e = (taken "ApiProperty,ApiPropertyOptional" "@nestjs/swagger").line ::
      ((relatedStatements p files .dto p.dtoName e).map Statement.line ++
        "" :: headLine p .dto (p.dtoName e.name) :: rest) := by
  have hfirst := importLine_taken "ApiProperty,ApiPropertyOptional" "@nestjs/swagger"
  have himports := relatedImports_eq p files .dto p.dtoName e
  refine ⟨e.columns.flatMap (dtoColumnLines p) ++ (e.relations.flatMap (dtoRelationLines p) ++
    ["\x7d"]), ?_⟩
  unfold dtoLines
  rw [← himports, ← hfirst]
  simp only [List.append_assoc, List.cons_append, List.nil_append]
  rfl

theorem head?_indexLine {i : Schema.Index} {l : String} (h : indexLine p i = .ok l) :
    l.toList.head? = some '@' := by
  unfold indexLine at h
  obtain ⟨options, -, rfl⟩ := Results.map_eq_ok.mp h
  simp [toString]

theorem entityLine_eq (e : Entity) :
    ∃ decorator, entityLine e = decorator ++ ")" ∧ decorator.toList.head? = some '@' := by
  refine ⟨_, rfl, ?_⟩
  simp [toString]

/-- The statements of a model: its base class, and the related entities. -/
def modelStatements (common : String) (files : EntityFiles) (e : Entity) : List Statement :=
  taken "BaseModel" (common ++ "/base.model") :: relatedStatements p files .model p.modelName e

theorem modelLines_eq {common : String} {files : EntityFiles} {e : Entity} {ls : Lines}
    (h : modelLines p common files e = .ok ls) :
    ∃ indices decorator rest, (∀ i ∈ indices, i.toList.head? = some '@') ∧
      decorator.toList.head? = some '@' ∧
      ls = (taken modelNames "typeorm").line ::
        ((modelStatements p common files e).map Statement.line ++
          "" :: (indices ++ (decorator ++ ")") :: headLine p .model (p.modelName e.name) :: rest)) := by
  obtain ⟨indices, columns, relations, hindices, -, -, rfl⟩ := modelLines_eq_ok.mp h
  obtain ⟨decorator, hdecorator, hhead⟩ := entityLine_eq e
  have hmodel : modelDecorators = "\x7b" ++ modelNames ++ "\x7d" := by decide +kernel
  have hbase := importLine_taken "BaseModel" (common ++ "/base.model")
  have himports := relatedImports_eq p files .model p.modelName e
  refine ⟨indices, decorator, columns.flatten ++ (relations.flatten ++ ["\x7d"]),
    Results.forall_mem_mapM hindices fun _ _ _ => head?_indexLine p, hhead, ?_⟩
  · unfold modelOf modelStatements
    rw [List.map_cons, ← himports, ← hbase, ← importLine_taken modelNames, ← hmodel, hdecorator]
    simp only [List.append_assoc, List.cons_append, List.nil_append]
    rfl

end Scaffold.Source
