import Scaffold.Proofs.Source.Decorators
import Scaffold.Proofs.Source.Parts

/-!
# `Scaffold.Proofs.Source.Applied` — the decorators that each kind of file applies

Which decorators a template applies follows from the entity alone: one for each index, column and relation,
some more where the schema asks for them, and those that every file of the kind has (`appliedBy`). The
lines of each kind apply them behind the import of all decorators (`headed_model` and its siblings).

## Contents
- **Entities.** `columnDecorators`, `relationDecorators`, `memberDecorator`, `appliedBy`.
- **Lines.** `lineApplies_columnLines`, `lineApplies_relationLines`, `lineApplies_dtoColumnLines` and
  their siblings.
- **Files.** `headed_model`, `headed_dto`, `headed_service`, `headed_controller`, `headed_module`.
-/

namespace Scaffold.Source

open Naming (Policy)
open Schema (Column Entity Relation)

/-! ## Entities -/

/-- The decorators of a column in a model. -/
def columnDecorators (c : Column) : List String :=
  (if c.generated.isSome then ["Generated"] else []) ++ ["Column"]

/-- The decorators of a relation in a model. -/
def relationDecorators (r : Relation) : List String :=
  r.cardinality.name :: ((if (r.joinColumns.getD []).isEmpty then [] else ["JoinColumn"]) ++
    if r.joinTable.isSome then ["JoinTable"] else [])

/-- The decorator of a column in a data transfer object. -/
def memberDecorator (c : Column) : String := if isOptional c then "ApiPropertyOptional" else "ApiProperty"

/-- **The decorators that the template of a kind applies** to what it sees of an entity, in order. -/
def appliedBy : Artifact → Projection → List String
  | .model, p => (p.entity.indices.map fun _ => "Index") ++ "Entity" ::
      (p.entity.columns.flatMap columnDecorators ++ p.entity.relations.flatMap relationDecorators)
  | .dto, p => p.entity.columns.map memberDecorator ++
      p.entity.relations.map fun _ => "ApiPropertyOptional"
  | .service, _ => ["Injectable", "InjectRepository"]
  | .controller, p => ["Controller", "Get", "Get", "Param"] ++
      p.oneToMany.flatMap (fun _ => ["Get", "Param"]) ++
      ["Post", "Body", "Put", "Param", "Body", "Delete", "Param"]
  | .module, _ => ["Module"]
  | .index, _ => []

/-! ## Lines -/

variable {p : Policy} {n : String}

theorem lineApplies_index {i : Schema.Index} {l : String} (h : indexLine p i = .ok l) :
    LineApplies "Index" l := by
  unfold indexLine at h
  obtain ⟨options, -, rfl⟩ := Results.map_eq_ok.mp h
  have hfront : LineApplies "Index" "@Index(\"" :=
    lineApplies_of_eq [] ['\x22'] (by decide) (by decide)
  exact ((((hfront.append _).append _).append _).append _).append _

theorem lineApplies_entity (e : Entity) : LineApplies "Entity" (entityLine e) := by
  have hfront : LineApplies "Entity" "@Entity(\"" :=
    lineApplies_of_eq [] ['\x22'] (by decide) (by decide)
  exact (((hfront.append _).append _).append _).append _

/-- The lines of a column apply its decorators. -/
theorem lineApplies_columnLines {c : Column} {ls : Lines} (h : columnLines p c = .ok ls)
    (hn : n ∈ columnDecorators c) : ∃ l ∈ ls, LineApplies n l := by
  unfold columnLines at h
  obtain ⟨argument, -, rfl⟩ := Results.map_eq_ok.mp h
  have hgenerated : LineApplies "Generated" "    @Generated(\"" :=
    lineApplies_of_eq "    ".toList ['\x22'] (by decide) (by decide)
  have hcolumn : LineApplies "Column" "    @Column(\"" :=
    lineApplies_of_eq "    ".toList ['\x22'] (by decide) (by decide)
  unfold columnDecorators at hn
  rcases List.mem_append.mp hn with hn | hn
  · cases hg : c.generated with
    | none =>
        rw [hg] at hn
        exact absurd hn List.not_mem_nil
    | some g =>
        rw [hg] at hn
        rw [List.mem_singleton.mp hn]
        exact ⟨_, List.mem_append_left _ (List.mem_append_right _ List.mem_cons_self),
          (hgenerated.append _).append _⟩
  · rw [List.mem_singleton.mp hn]
    exact ⟨_, List.mem_append_right _ List.mem_cons_self,
      (((hcolumn.append _).append _).append _).append _⟩

/-- The lines of a relation apply its decorators. -/
theorem lineApplies_relationLines {r : Relation} {ls : Lines} (h : relationLines p r = .ok ls)
    (hn : n ∈ relationDecorators r) : ∃ l ∈ ls, LineApplies n l := by
  unfold relationLines relationLine at h
  obtain ⟨decorator, hdecorator, rfl⟩ := Results.map_eq_ok.mp h
  obtain ⟨options, -, rfl⟩ := Results.map_eq_ok.mp hdecorator
  unfold relationDecorators at hn
  rcases List.mem_cons.mp hn with rfl | hn
  · have hfront : LineApplies r.cardinality.name ("    @" ++ r.cardinality.name ++ "(() => ") := by
      refine lineApplies_of_eq "    ".toList "() => ".toList ?_ (by decide)
      cases r.cardinality <;> decide
    exact ⟨_, List.mem_append_left _ (List.mem_append_left _ (List.mem_append_left _
      (List.mem_cons_of_mem _ List.mem_cons_self))), (((hfront.append _).append _).append _).append _⟩
  · rcases List.mem_append.mp hn with hn | hn
    · have hfront : LineApplies "JoinColumn" "    @JoinColumn(" :=
        lineApplies_of_eq "    ".toList [] (by decide) (by decide)
      split at hn
      · exact absurd hn List.not_mem_nil
      · rename_i hfilled
        rw [List.mem_singleton.mp hn]
        refine ⟨"    @JoinColumn(" ++ joinColumnList (r.joinColumns.getD []) ++ ")", ?_,
          (hfront.append _).append _⟩
        simp [joinColumnLines, hfilled]
    · have hfront : LineApplies "JoinTable" "    @JoinTable(" :=
        lineApplies_of_eq "    ".toList [] (by decide) (by decide)
      cases ht : r.joinTable with
      | none =>
          rw [ht] at hn
          exact absurd hn List.not_mem_nil
      | some t =>
          rw [ht] at hn
          rw [List.mem_singleton.mp hn]
          exact ⟨joinTableLine t, by simp, (hfront.append _).append _⟩

/-- The lines of a column of a data transfer object apply its decorator. -/
theorem lineApplies_dtoColumnLines (c : Column) :
    ∃ l ∈ dtoColumnLines p c, LineApplies (memberDecorator c) l := by
  unfold dtoColumnLines memberDecorator
  split
  · exact ⟨"    @ApiPropertyOptional()", by simp,
      lineApplies_of_eq "    ".toList [')'] (by decide) (by decide)⟩
  · exact ⟨"    @ApiProperty()", by simp,
      lineApplies_of_eq "    ".toList [')'] (by decide) (by decide)⟩

theorem lineApplies_dtoRelationLines (r : Relation) :
    ∃ l ∈ dtoRelationLines p r, LineApplies "ApiPropertyOptional" l := by
  have hfront : LineApplies "ApiPropertyOptional" "    @ApiPropertyOptional(" :=
    lineApplies_of_eq "    ".toList [] (by decide) (by decide)
  exact ⟨_, List.mem_cons_of_mem _ List.mem_cons_self, (hfront.append _).append _⟩

/-! ## Files -/

theorem head?_importLine (clause path : String) :
    (importLine clause path).toList.head? ≠ some '\n' := by
  simp [importLine_eq]

/-- **The lines of a model.** -/
theorem headed_model {common : String} {files : EntityFiles} {e : Entity} {routes : List Relation}
    {ls : Lines} (h : modelLines p common files e = .ok ls) :
    Headed .model (appliedBy .model ⟨e, routes⟩) ls := by
  obtain ⟨indices, columns, relations, hindices, hcolumns, hrelations, rfl⟩ := modelLines_eq_ok.mp h
  have hfirst : importLine modelDecorators "typeorm" =
      (taken (joined (decoratorsOf .model)) (packageOf .model)).line := by
    rw [← importLine_taken]
    decide +kernel
  refine ⟨congrArg some hfirst, fun l hl => ?_, fun n hn => ?_⟩
  · cases hl
    exact head?_importLine _ _
  · simp only [modelOf, List.cons_append, List.nil_append, List.append_assoc, List.tail_cons,
      List.mem_cons, List.mem_append, List.mem_flatten]
    unfold appliedBy at hn
    rcases List.mem_append.mp hn with hn | hn
    · obtain ⟨i, hi, rfl⟩ := List.mem_map.mp hn
      obtain ⟨l, hl, hline⟩ := Results.exists_mem_of_mapM hindices i hi
      exact ⟨l, .inr (.inr (.inr (.inl hl))), lineApplies_index hline⟩
    · rcases List.mem_cons.mp hn with rfl | hn
      · exact ⟨entityLine e, .inr (.inr (.inr (.inr (.inl rfl)))), lineApplies_entity e⟩
      · rcases List.mem_append.mp hn with hn | hn
        · obtain ⟨c, hc, hn⟩ := List.mem_flatMap.mp hn
          obtain ⟨w, hw, hlines⟩ := Results.exists_mem_of_mapM hcolumns c hc
          obtain ⟨l, hl, hline⟩ := lineApplies_columnLines hlines hn
          exact ⟨l, .inr (.inr (.inr (.inr (.inr (.inr (.inl ⟨w, hw, hl⟩)))))), hline⟩
        · obtain ⟨r, hr, hn⟩ := List.mem_flatMap.mp hn
          obtain ⟨w, hw, hlines⟩ := Results.exists_mem_of_mapM hrelations r hr
          obtain ⟨l, hl, hline⟩ := lineApplies_relationLines hlines hn
          exact ⟨l, .inr (.inr (.inr (.inr (.inr (.inr (.inr (.inl ⟨w, hw, hl⟩))))))), hline⟩

/-- **The lines of a data transfer object.** -/
theorem headed_dto (files : EntityFiles) (e : Entity) (routes : List Relation) :
    Headed .dto (appliedBy .dto ⟨e, routes⟩) (dtoLines p files e) := by
  have hfirst := importLine_taken "ApiProperty,ApiPropertyOptional" "@nestjs/swagger"
  refine ⟨congrArg some hfirst, fun l hl => ?_, fun n hn => ?_⟩
  · cases hrelated : relatedNames e with
    | nil =>
        simp [dtoLines, relatedImports, hrelated] at hl
        simp [hl]
    | cons r rs =>
        simp [dtoLines, relatedImports, hrelated] at hl
        exact hl ▸ head?_importLine _ _
  · have hmem : ∀ l, (∃ c ∈ e.columns, l ∈ dtoColumnLines p c) ∨
        (∃ r ∈ e.relations, l ∈ dtoRelationLines p r) → l ∈ (dtoLines p files e).tail := by
      intro l hl
      unfold dtoLines
      simp only [List.cons_append, List.nil_append, List.append_assoc, List.tail_cons, List.mem_cons,
        List.mem_append, List.mem_flatMap]
      rcases hl with hl | hl
      · exact .inr (.inr (.inr (.inl hl)))
      · exact .inr (.inr (.inr (.inr (.inl hl))))
    unfold appliedBy at hn
    rcases List.mem_append.mp hn with hn | hn
    · obtain ⟨c, hc, rfl⟩ := List.mem_map.mp hn
      obtain ⟨l, hl, hline⟩ := lineApplies_dtoColumnLines (p := p) c
      exact ⟨l, hmem l (.inl ⟨c, hc, hl⟩), hline⟩
    · obtain ⟨r, hr, rfl⟩ := List.mem_map.mp hn
      obtain ⟨l, hl, hline⟩ := lineApplies_dtoRelationLines (p := p) r
      exact ⟨l, hmem l (.inr ⟨r, hr, hl⟩), hline⟩

/-- **The lines of a service.** -/
theorem headed_service (models dtos : String) (seen : Projection) :
    Headed .service (appliedBy .service seen) (serviceLines p models dtos seen.entity) := by
  have hfirst := importLine_taken "Injectable" "@nestjs/common"
  refine ⟨congrArg some hfirst, fun l hl => ?_, fun n hn => ?_⟩
  · cases hl
    exact head?_importLine _ _
  · have hinject : LineApplies "InjectRepository" "        @InjectRepository(" :=
      lineApplies_of_eq "        ".toList [] (by decide) (by decide)
    unfold appliedBy at hn
    simp only [List.mem_cons, List.not_mem_nil, or_false] at hn
    rcases hn with rfl | rfl
    · exact ⟨"@Injectable()", by simp [serviceLines],
        lineApplies_of_eq [] [')'] (by decide) (by decide)⟩
    · exact ⟨s!"        @InjectRepository({p.modelName seen.entity.name})", by simp [serviceLines],
        (hinject.append _).append _⟩

/-- **The lines of a controller.** -/
theorem headed_controller (services dtos : String) (seen : Projection) :
    Headed .controller (appliedBy .controller seen)
      (controllerLines p services dtos seen.entity seen.oneToMany) := by
  have hfirst := importLine_taken "Controller,Get,Post,Put,Delete,Body,Param" "@nestjs/common"
  refine ⟨congrArg some hfirst, fun l hl => ?_, fun n hn => ?_⟩
  · cases hl
    exact head?_importLine _ _
  · -- the routes of relations apply what other lines apply as well
    have hnames : n ∈ ["Controller", "Get", "Param", "Post", "Body", "Put", "Delete"] := by
      unfold appliedBy at hn
      simp only [List.mem_append, List.mem_flatMap, List.mem_cons, List.not_mem_nil, or_false] at hn
      simp only [List.mem_cons, List.not_mem_nil, or_false]
      tauto
    have hcontroller : LineApplies "Controller" "@Controller(\"" :=
      lineApplies_of_eq [] ['\x22'] (by decide) (by decide)
    have hbody : LineApplies "Body" "    create(@Body() dto: " :=
      lineApplies_of_eq "    create(".toList ") dto: ".toList (by decide) (by decide)
    simp only [List.mem_cons, List.not_mem_nil, or_false] at hnames
    rcases hnames with rfl | rfl | rfl | rfl | rfl | rfl | rfl
    · exact ⟨s!"@Controller(\"{seen.entity.table}\")", by simp [controllerLines],
        (hcontroller.append _).append _⟩
    · exact ⟨"    @Get()", by simp [controllerLines],
        lineApplies_of_eq "    ".toList [')'] (by decide) (by decide)⟩
    · exact ⟨"    findOne(@Param(\"id\") id: string) \x7b", by simp [controllerLines],
        lineApplies_of_eq "    findOne(".toList "\"id\") id: string) \x7b".toList (by decide) (by decide)⟩
    · exact ⟨"    @Post()", by simp [controllerLines],
        lineApplies_of_eq "    ".toList [')'] (by decide) (by decide)⟩
    · exact ⟨s!"    create(@Body() dto: {p.dtoName seen.entity.name}) \x7b", by simp [controllerLines],
        (hbody.append _).append _⟩
    · exact ⟨"    @Put(\":id\")", by simp [controllerLines],
        lineApplies_of_eq "    ".toList "\":id\")".toList (by decide) (by decide)⟩
    · exact ⟨"    @Delete(\":id\")", by simp [controllerLines],
        lineApplies_of_eq "    ".toList "\":id\")".toList (by decide) (by decide)⟩

/-- **The lines of a module.** -/
theorem headed_module (models services controllers : String) (ms : List Mention) (module : String) :
    Headed .module ["Module"] (moduleLines p models services controllers ms module) := by
  have hfirst := importLine_taken "Module" "@nestjs/common"
  refine ⟨congrArg some hfirst, fun l hl => ?_, fun n hn => ?_⟩
  · cases hl
    exact head?_importLine _ _
  · rw [List.mem_singleton.mp hn]
    exact ⟨"@Module(\x7b", by simp [moduleLines],
      lineApplies_of_eq [] ['\x7b'] (by decide) (by decide)⟩

end Scaffold.Source
