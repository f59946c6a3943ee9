import Scaffold.Proofs.Generation.Files
import Scaffold.Proofs.Json.Writer
import Scaffold.Proofs.Results
import Scaffold.Proofs.Source.Parts

/-!
# `Scaffold.Proofs.Generation.Texts` — what the files of a run are rendered from

Names are looked up when a file is rendered, and each lookup can fail. In a run none does: every file
is what its kind makes of the entity or the entities (`text_model` and its siblings). Only the options
of decorators may have no JSON, which entities of JSON values cannot have (`exists_modelLines`).

## Contents
- **Texts.** `Job.finished`, `text_service`, `text_controller`, `entityLines`, `text_of_project?`,
  `text_dto`, `text_model`, `text_module`, `text_index`, `text_project`.
- **Totality.** `JsonValued`, `exists_modelLines`, `exists_text_entity`, `exists_text`.
-/

namespace Scaffold.Generation

open Disk (Path)
open Schema (Column Entity)
open Source (Lines Mention RenderFault joinLines)
open Json (IsJson)

namespace Job

/-- What is said of an entity in the files for all. -/
def mention (e : Entity) : Mention := ⟨e.name, e.fileName⟩

/-- A text from lines, with the line endings and the imports that it shall have. -/
def finished (j : Job) (a : Artifact) (ls : Lines) : Except RenderFault String :=
  j.finish a (joinLines j.platform ls)

/-! ## Texts -/

variable (j : Job) (e : Entity)

theorem text_service : (j.entityDraft .service e).text =
    j.finished .service (Source.serviceLines j.policy (j.layout.importPrefix .service .model)
      (j.layout.importPrefix .service .dto) e) := rfl

theorem text_controller : (j.entityDraft .controller e).text =
    j.finished .controller (Source.controllerLines j.policy
      (j.layout.importPrefix .controller .service) (j.layout.importPrefix .controller .dto) e
      e.oneToMany) := rfl

/-- What the templates of the files of an entity see. -/
def scopeOf (a : Artifact) (p : Projection) : Source.Scope :=
  { entityScope p with
    paths := some (j.layout.importPrefixes a), entityFiles := some j.entityFiles }

/-- The names of files are looked up only where there are other entities, and count only there. -/
theorem exists_files (a : Artifact) (p : Projection) (q : Naming.Policy)
    (className : String → String) :
    ∃ files, (j.scopeOf a p).files p.entity = .ok files ∧
      Source.relatedImports q files a className p.entity =
        Source.relatedImports q j.entityFiles a className p.entity := by
  unfold Source.Scope.files
  split
  · rename_i hnone
    refine ⟨[], rfl, ?_⟩
    unfold Source.relatedImports
    rw [List.isEmpty_iff.mp hnone]
    rfl
  · exact ⟨j.entityFiles, rfl, rfl⟩

/-- The lines that the template of a kind gives for what it sees of an entity. -/
def entityLines (a : Artifact) (p : Projection) : Except RenderFault Lines :=
  (Source.Template.ofArtifact a).lines j.policy (j.scopeOf a p)

/-- The text of a file is finished from the lines that its template gives. -/
theorem text_of_project? {a : Artifact} {p : Projection} (h : project? e a = some p) :
    (j.entityDraft a e).text = (j.entityLines a p).bind (j.finished a) := by
  have htext : (j.entityDraft a e).text =
      ((j.entityLines a p).map (joinLines j.platform)).bind (j.finish a) := by
    unfold entityDraft
    rw [h]
    rfl
  rw [htext]
  cases j.entityLines a p <;> rfl

theorem lines_dto : j.entityLines .dto ⟨e.forDto, []⟩ =
    .ok (Source.dtoLines j.policy j.entityFiles e.forDto) := by
  obtain ⟨files, hfiles, himports⟩ := j.exists_files .dto ⟨e.forDto, []⟩ j.policy j.policy.dtoName
  -- the table of file names only matters where it is looked up
  have hlines : Source.dtoLines j.policy files e.forDto
      = Source.dtoLines j.policy j.entityFiles e.forDto := by
    unfold Source.dtoLines
    rw [himports]
  have hscope : j.entityLines .dto ⟨e.forDto, []⟩ =
      ((j.scopeOf .dto ⟨e.forDto, []⟩).files e.forDto).bind fun files =>
        .ok (Source.dtoLines j.policy files e.forDto) := rfl
  rw [hscope, hfiles, ← hlines]
  rfl

theorem lines_model : j.entityLines .model ⟨e.forModel, []⟩ =
    (Source.modelLines j.policy (Path.moduleFrom (j.layout.directory .model)
      (j.layout.root ++ [Layout.commonName])) j.entityFiles e.forModel).mapError
        RenderFault.unwritable := by
  obtain ⟨files, hfiles, himports⟩ :=
    j.exists_files .model ⟨e.forModel, []⟩ j.policy j.policy.modelName
  have hlines : ∀ common, Source.modelLines j.policy common files e.forModel
      = Source.modelLines j.policy common j.entityFiles e.forModel := by
    intro common
    unfold Source.modelLines
    rw [himports]
  have hscope : j.entityLines .model ⟨e.forModel, []⟩ =
      ((j.scopeOf .model ⟨e.forModel, []⟩).files e.forModel).bind fun files =>
        (Source.modelLines j.policy (Path.moduleFrom (j.layout.directory .model)
          (j.layout.root ++ [Layout.commonName])) files e.forModel).mapError
            RenderFault.unwritable := rfl
  rw [hscope, hfiles, ← hlines]
  rfl

theorem text_dto : (j.entityDraft .dto e).text =
    j.finished .dto (Source.dtoLines j.policy j.entityFiles e.forDto) := by
  rw [j.text_of_project? e rfl, lines_dto]
  rfl

theorem text_model : (j.entityDraft .model e).text =
    ((Source.modelLines j.policy (Path.moduleFrom (j.layout.directory .model)
      (j.layout.root ++ [Layout.commonName])) j.entityFiles e.forModel).mapError
        RenderFault.unwritable).bind (j.finished .model) := by
  rw [j.text_of_project? e rfl, lines_model]

theorem mapM_whole (es : List Entity) :
    (es.map Source.mentionOf).mapM Source.PartialMention.whole = .ok (es.map mention) := by
  induction es with
  | nil => rfl
  | cons e es ih =>
      rw [List.map_cons, List.mapM_cons, ih]
      rfl

theorem mapM_indexMention (p : Naming.Policy) (es : List Entity) :
    (es.map Source.mentionOf).mapM (Source.indexMention p) = .ok (es.map mention) := by
  have hone : ∀ e, Source.indexMention p (Source.mentionOf e) = .ok (mention e) := by
    intro e
    unfold Source.indexMention
    split <;> rfl
  induction es with
  | nil => rfl
  | cons e es ih =>
      rw [List.map_cons, List.mapM_cons, ih, hone]
      rfl

theorem lines_module : Source.Template.module.lines j.policy { j.jointScope with
      paths := some (j.layout.importPrefixes .module), entityFiles := some j.entityFiles } =
    .ok (Source.moduleLines j.policy (j.layout.importPrefix .module .model)
      (j.layout.importPrefix .module .service) (j.layout.importPrefix .module .controller)
      (j.entities.map mention) j.module) := by
  have hscope : Source.Template.module.lines j.policy { j.jointScope with
        paths := some (j.layout.importPrefixes .module), entityFiles := some j.entityFiles } =
      (Source.moduleMentions { j.jointScope with
          paths := some (j.layout.importPrefixes .module), entityFiles := some j.entityFiles }
        (j.entities.map Source.mentionOf)).bind fun x =>
          .ok (Source.moduleLines j.policy x.1.1 x.1.2.1 x.1.2.2 x.2 j.module) := rfl
  -- the ways to other files are looked up only where there is an entity
  cases hes : j.entities with
  | nil =>
      rw [hscope, hes]
      rfl
  | cons e es =>
      have hmentions : Source.moduleMentions { j.jointScope with
            paths := some (j.layout.importPrefixes .module), entityFiles := some j.entityFiles }
          ((e :: es).map Source.mentionOf) =
          (((e :: es).map Source.mentionOf).mapM Source.PartialMention.whole).bind fun ms =>
            .ok ((j.layout.importPrefix .module .model, j.layout.importPrefix .module .service,
              j.layout.importPrefix .module .controller), ms) := rfl
      rw [hscope, hes, hmentions, mapM_whole]
      rfl

theorem text_module : (j.jointDraft .module).text =
    j.finished .module (Source.moduleLines j.policy (j.layout.importPrefix .module .model)
      (j.layout.importPrefix .module .service) (j.layout.importPrefix .module .controller)
      (j.entities.map mention) j.module) := by
  have htext : (j.jointDraft .module).text =
      ((Source.Template.module.lines j.policy { j.jointScope with
          paths := some (j.layout.importPrefixes .module), entityFiles := some j.entityFiles }).map
            (joinLines j.platform)).bind (j.finish .module) := rfl
  rw [htext, lines_module]
  rfl

theorem text_index : (j.jointDraft .index).text =
    j.finished .index (Source.indexLines j.policy (j.entities.map mention)) := by
  have htext : (j.jointDraft .index).text =
      ((((j.entities.map Source.mentionOf).mapM (Source.indexMention j.policy)).bind fun ms =>
        .ok (Source.indexLines j.policy ms)).map (joinLines j.platform)).bind
          (j.finish .index) := rfl
  rw [htext, mapM_indexMention]
  rfl

theorem text_project : j.projectDraft.text =
    j.normalized (joinLines j.platform (Source.projectLines j.policy)) := rfl

/-! ## Totality -/

theorem finished_eq {eol : Text.Eol} (h : j.eol = .ok eol) (a : Artifact) (ls : Lines) :
    j.finished a ls =
      .ok (pruned a (Text.normalize (joinLines j.platform ls) eol j.platform)) := by
  unfold finished finish normalized
  rw [h]
  rfl

end Job

/-- All options of decorators are values that a JSON document can hold, in which collections do not stand
    too deep to be written. -/
structure JsonValued (e : Entity) : Prop where
  columns : ∀ c ∈ e.columns, IsJson Json.writeLimit (.map c.options)
  relations : ∀ r ∈ e.relations, IsJson Json.writeLimit (.map r.options)
  indices : ∀ i ∈ e.indices, IsJson Json.writeLimit (.map i.options)

theorem exists_literal {options : Entries} (h : IsJson Json.writeLimit (.map options)) :
    ∃ s, Naming.literal (.map options) = .ok s := by
  obtain ⟨cs, hcs⟩ := h.exists_writeChars .compact
  unfold Naming.literal
  rw [hcs]
  exact ⟨_, rfl⟩

theorem exists_optionsArgument {options : Entries} (h : IsJson Json.writeLimit (.map options)) :
    ∃ s, Source.optionsArgument options = .ok s := by
  obtain ⟨s, hs⟩ := exists_literal h
  unfold Source.optionsArgument
  split
  · exact ⟨_, rfl⟩
  · rw [hs]
    exact ⟨_, rfl⟩

theorem exists_columnLines (p : Naming.Policy) {c : Column} (h : IsJson Json.writeLimit (.map c.options)) :
    ∃ ls, Source.columnLines p c = .ok ls := by
  have hargument : ∃ s, Source.columnArgument c = .ok s := by
    obtain ⟨s, hs⟩ := exists_literal h
    unfold Source.columnArgument
    split
    · exact ⟨_, rfl⟩
    · rw [hs]
      exact ⟨_, rfl⟩
  obtain ⟨s, hs⟩ := hargument
  unfold Source.columnLines
  rw [hs]
  exact ⟨_, rfl⟩

/-- The model of an entity of JSON values has lines. -/
theorem exists_modelLines (p : Naming.Policy) (common : String) (files : Source.EntityFiles)
    {e : Entity} (h : JsonValued e) : ∃ ls, Source.modelLines p common files e = .ok ls := by
  have hindices : ∃ ls, e.indices.mapM (Source.indexLine p) = .ok ls := by
    refine Results.exists_mapM fun i hi => ?_
    obtain ⟨s, hs⟩ := exists_optionsArgument (h.indices i hi)
    unfold Source.indexLine
    rw [hs]
    exact ⟨_, rfl⟩
  have hcolumns : ∃ ls, e.columns.mapM (Source.columnLines p) = .ok ls :=
    Results.exists_mapM fun c hc => exists_columnLines p (h.columns c hc)
  have hrelations : ∃ ls, e.relations.mapM (Source.relationLines p) = .ok ls := by
    refine Results.exists_mapM fun r hr => ?_
    obtain ⟨s, hs⟩ := exists_optionsArgument (h.relations r hr)
    unfold Source.relationLines Source.relationLine
    rw [hs]
    exact ⟨_, rfl⟩
  obtain ⟨indices, hi⟩ := hindices
  obtain ⟨columns, hc⟩ := hcolumns
  obtain ⟨relations, hr⟩ := hrelations
  exact ⟨_, Source.modelLines_eq_ok.mpr ⟨indices, columns, relations, hi, hc, hr, rfl⟩⟩

theorem JsonValued.forModel {e : Entity} (h : JsonValued e) : JsonValued e.forModel where
  columns c hc := h.columns c (List.mem_filter.mp hc).1
  relations := h.relations
  indices := h.indices

variable {j : Job} {eol : Text.Eol}

theorem exists_text_dto (heol : j.eol = .ok eol) (e : Entity) :
    ∃ text, (j.entityDraft .dto e).text = .ok text := by
  rw [j.text_dto]
  exact ⟨_, j.finished_eq heol .dto _⟩

theorem exists_text_model (heol : j.eol = .ok eol) {e : Entity} (he : JsonValued e) :
    ∃ text, (j.entityDraft .model e).text = .ok text := by
  obtain ⟨ls, hls⟩ := exists_modelLines j.policy (Path.moduleFrom (j.layout.directory .model)
    (j.layout.root ++ [Layout.commonName])) j.entityFiles he.forModel
  rw [j.text_model, hls]
  exact ⟨_, j.finished_eq heol .model ls⟩

/-- Every file of an entity is rendered, the model if the entity consists of JSON values. -/
theorem exists_text_entity (heol : j.eol = .ok eol) {e : Entity} {a : Artifact}
    (ha : a ∈ Layout.entityKinds) (he : a = .model → JsonValued e) :
    ∃ text, (j.entityDraft a e).text = .ok text := by
  rcases Layout.cases_entityKind ha with rfl | rfl | rfl | rfl
  · exact exists_text_model heol (he rfl)
  · exact exists_text_dto heol e
  · exact ⟨_, j.finished_eq heol .service _⟩
  · exact ⟨_, j.finished_eq heol .controller _⟩

/-- **Every file of a run is rendered**, if the entities consist of JSON values. -/
theorem exists_text (heol : j.eol = .ok eol) (hes : ∀ e ∈ j.entities, JsonValued e) :
    ∀ x ∈ j.sequence, ∃ text, x.text = .ok text := by
  intro x hx
  rcases Job.mem_sequence_cases hx with ⟨a, ha, e, he, rfl⟩ | rfl | rfl | rfl
  · exact exists_text_entity heol ha fun _ => hes e he
  · rw [Job.text_index]
    exact ⟨_, j.finished_eq heol .index _⟩
  · rw [Job.text_module]
    exact ⟨_, j.finished_eq heol .module _⟩
  · rw [Job.text_project, Job.normalized, heol]
    exact ⟨_, rfl⟩

end Scaffold.Generation
