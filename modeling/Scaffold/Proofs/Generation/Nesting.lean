import Scaffold.Proofs.Disk.Path
import Scaffold.Proofs.Generation.Texts
import Scaffold.Proofs.Layout
import Scaffold.Proofs.Source.Nesting

/-!
# `Scaffold.Proofs.Generation.Nesting` — the brackets of what a run renders

Whatever the conventions and the layout of a run are, every text that it renders is nested if the texts
of its entities and the name of its module are (`Job.rendered_nested`). This is said of the rendered
texts, before line endings are set and imports are pruned; the ways to other files, which are made from
the names of directories, bring no bracket.

## Contents
- **Ways.** `isNested_moduleFrom`, `isNested_importPrefix`.
- **Jobs.** `Job.texts`, `Job.rendered`, `Job.Nested`, `Job.rendered_nested`.
-/

namespace Scaffold.Generation

open Disk (Path)
open Schema (Entity)
open Source (RenderFault Scope Template joinLines)
open Text (IsNested isNested_append isNested_ofList)

/-! ## Ways -/

theorem isNested_moduleFrom (start : Path) {target : Path} (h : ∀ s ∈ target, IsNested s) :
    IsNested (Path.moduleFrom start target) := by
  have hdown : (Path.split start target).2 ⊆ target := by
    fun_induction Path.split start target with
    | case1 p b q ih =>
        exact List.subset_cons_of_subset _ (ih fun s hs => h s (List.mem_cons_of_mem _ hs))
    | case2 => exact List.Subset.refl _
    | case3 => exact List.Subset.refl _
  have hway : ∀ s ∈ Path.wayFrom start target, IsNested s := by
    intro s hs
    rcases List.mem_append.mp hs with hs | hs
    · obtain ⟨-, -, rfl⟩ := List.mem_map.mp hs
      exact isNested_ofList (by decide)
    · exact h s (hdown hs)
  have hjoined : IsNested (Path.joined (Path.wayFrom start target)) :=
    Text.isNested_joinWith (isNested_ofList (by decide)) hway
  unfold Path.moduleFrom
  split
  · exact isNested_ofList (by decide)
  · exact Text.isNested_ite hjoined (isNested_append (isNested_ofList (by decide)) hjoined)

theorem isNested_importPrefix (l : Layout) (a b : Artifact) : IsNested (l.importPrefix a b) := by
  rw [Layout.importPrefix_eq]
  refine isNested_moduleFrom _ ?_
  generalize l.flat = flat
  cases flat <;> cases b <;> decide

theorem isNested_common (l : Layout) (a : Artifact) :
    IsNested (Path.moduleFrom (l.directory a) (l.root ++ [Layout.commonName])) := by
  unfold Path.moduleFrom Path.wayFrom
  rw [Layout.directory_eq, Disk.split_append]
  exact isNested_moduleFrom _ (List.forall_mem_singleton.mpr (isNested_ofList (by decide)))

/-! ## Jobs -/

/-- The texts that the files of a job are made from. -/
def Job.texts (j : Job) : List String := j.module :: j.entities.flatMap Entity.texts

/-- What the template of a kind gives for what is in scope, before line endings are set and imports are
    pruned. -/
def Job.rendered (j : Job) (a : Artifact) (scope : Scope) : Except RenderFault String :=
  (Template.ofArtifact a).render j.policy
    { scope with
      paths := some (j.layout.importPrefixes a), entityFiles := some j.entityFiles } j.platform

theorem Job.rendered_entity (j : Job) (a : Artifact) (p : Projection) :
    j.rendered a (Job.entityScope p) = (j.entityLines a p).map (joinLines j.platform) := rfl

/-- **All that a job renders for its files is nested**, and only options that JSON cannot hold keep
    something from being rendered. -/
structure Job.Nested (j : Job) : Prop where
  /-- The files of an entity, with what their kind sees of it. -/
  entity : ∀ a ∈ Layout.entityKinds, ∀ e ∈ j.entities, ∃ p, project? e a = some p ∧
    (j.entityDraft a e).text = (j.rendered a (Job.entityScope p)).bind (j.finish a) ∧
    (∀ text, j.rendered a (Job.entityScope p) = .ok text → IsNested text) ∧
    (JsonValued e → ∃ text, j.rendered a (Job.entityScope p) = .ok text)
  /-- The files for all entities. -/
  joint : ∀ a, a = .index ∨ a = .module →
    (j.jointDraft a).text = (j.rendered a j.jointScope).bind (j.finish a) ∧
    ∃ text, j.rendered a j.jointScope = .ok text ∧ IsNested text

section Nested

variable {j : Job} (heol : IsNested j.platform) (htexts : ∀ s ∈ j.texts, IsNested s)
include htexts

theorem isNested_texts {e : Entity} (he : e ∈ j.entities) : ∀ s ∈ e.texts, IsNested s :=
  fun s hs => htexts s (List.mem_cons_of_mem _ (List.mem_flatMap.mpr ⟨e, he, hs⟩))

theorem isNested_entityFiles : ∀ x ∈ j.entityFiles, IsNested x.2 := by
  intro x hx
  obtain ⟨e, he, -, hfile⟩ := Job.mem_entityFiles.mp hx
  exact hfile ▸ (Entity.forall_texts.mp (isNested_texts htexts he)).1.2.1

theorem isNested_mentions :
    ∀ m ∈ j.entities.map Job.mention, IsNested m.name ∧ IsNested m.file := by
  intro m hm
  obtain ⟨e, he, rfl⟩ := List.mem_map.mp hm
  obtain ⟨⟨hname, hfile, -⟩, -⟩ := Entity.forall_texts.mp (isNested_texts htexts he)
  exact ⟨hname, hfile⟩

include heol

/-- The model has a text if its options have one, which is nested. -/
theorem isNested_rendered_model {e : Entity} (he : e ∈ j.entities) {text : String}
    (h : j.rendered .model (Job.entityScope ⟨e.forModel, []⟩) = .ok text) : IsNested text := by
  rw [j.rendered_entity, j.lines_model] at h
  obtain ⟨ls, hls, rfl⟩ := Results.map_eq_ok.mp h
  have hmodel : ∀ s ∈ e.forModel.texts, IsNested s := fun s hs =>
    isNested_texts htexts he s (Entity.texts_forModel_subset e hs)
  exact Source.isNested_model heol j.policy (isNested_common j.layout .model)
    (isNested_entityFiles htexts) hmodel (Results.mapError_eq_ok.mp hls)

theorem exists_rendered_dto {e : Entity} (he : e ∈ j.entities) : ∃ text,
    j.rendered .dto (Job.entityScope ⟨e.forDto, []⟩) = .ok text ∧ IsNested text := by
  have hdto : ∀ s ∈ e.forDto.texts, IsNested s := fun s hs =>
    isNested_texts htexts he s (Entity.texts_forDto_subset e hs)
  refine ⟨_, ?_, Source.isNested_dto heol j.policy (isNested_entityFiles htexts) hdto⟩
  rw [j.rendered_entity, j.lines_dto]
  rfl

theorem exists_rendered_service {e : Entity} (he : e ∈ j.entities) : ∃ text,
    j.rendered .service (Job.entityScope ⟨e, []⟩) = .ok text ∧ IsNested text :=
  ⟨_, rfl, Source.isNested_service heol j.policy (isNested_importPrefix j.layout .service .model)
    (isNested_importPrefix j.layout .service .dto) (isNested_texts htexts he)⟩

theorem exists_rendered_controller {e : Entity} (he : e ∈ j.entities) : ∃ text,
    j.rendered .controller (Job.entityScope ⟨e, e.oneToMany⟩) = .ok text ∧ IsNested text :=
  ⟨_, rfl, Source.isNested_controller heol j.policy
    (isNested_importPrefix j.layout .controller .service)
    (isNested_importPrefix j.layout .controller .dto) (isNested_texts htexts he)
    List.filter_sublist.subset⟩

theorem exists_rendered_index :
    ∃ text, j.rendered .index j.jointScope = .ok text ∧ IsNested text := by
  have hrendered : j.rendered .index j.jointScope =
      (((j.entities.map Source.mentionOf).mapM (Source.indexMention j.policy)).bind fun ms =>
        .ok (Source.indexLines j.policy ms)).map (joinLines j.platform) := rfl
  refine ⟨_, ?_, Source.isNested_index heol j.policy (isNested_mentions htexts)⟩
  rw [hrendered, Job.mapM_indexMention]
  rfl

theorem exists_rendered_module :
    ∃ text, j.rendered .module j.jointScope = .ok text ∧ IsNested text := by
  have hrendered : j.rendered .module j.jointScope =
      (Template.module.lines j.policy { j.jointScope with
        paths := some (j.layout.importPrefixes .module), entityFiles := some j.entityFiles }).map
          (joinLines j.platform) := rfl
  refine ⟨_, ?_, Source.isNested_module heol j.policy (isNested_importPrefix j.layout .module .model)
    (isNested_importPrefix j.layout .module .service)
    (isNested_importPrefix j.layout .module .controller) (isNested_mentions htexts)
    (htexts j.module List.mem_cons_self)⟩
  rw [hrendered, j.lines_module]
  rfl

end Nested

/-- What is rendered as a nested text has no other one. -/
theorem nested_of_exists {x : Except RenderFault String} {P : Prop}
    (h : ∃ text, x = .ok text ∧ IsNested text) :
    (∀ text, x = .ok text → IsNested text) ∧ (P → ∃ text, x = .ok text) := by
  obtain ⟨text, htext, hnested⟩ := h
  exact ⟨fun t ht => Except.ok.inj (htext.symm.trans ht) ▸ hnested, fun _ => ⟨text, htext⟩⟩

/-- **Every text that a run renders is properly nested over parentheses, brackets and braces**, if the
    texts of its entities and the name of its module are, whatever the conventions and the layout. Line
    endings hold no bracket. -/
theorem Job.rendered_nested {j : Job} (heol : IsNested j.platform)
    (htexts : ∀ s ∈ j.texts, IsNested s) : j.Nested := by
  constructor
  · intro a ha e he
    rcases Layout.cases_entityKind ha with rfl | rfl | rfl | rfl
    · refine ⟨⟨e.forModel, []⟩, rfl, rfl, fun text => isNested_rendered_model heol htexts he, ?_⟩
      intro hvalues
      obtain ⟨ls, hls⟩ := exists_modelLines j.policy
        (Path.moduleFrom (j.layout.directory .model) (j.layout.root ++ [Layout.commonName]))
        j.entityFiles hvalues.forModel
      rw [j.rendered_entity, j.lines_model, hls]
      exact ⟨_, rfl⟩
    · exact ⟨⟨e.forDto, []⟩, rfl, rfl, nested_of_exists (exists_rendered_dto heol htexts he)⟩
    · exact ⟨⟨e, []⟩, rfl, rfl, nested_of_exists (exists_rendered_service heol htexts he)⟩
    · exact ⟨⟨e, e.oneToMany⟩, rfl, rfl,
        nested_of_exists (exists_rendered_controller heol htexts he)⟩
  · rintro a (rfl | rfl)
    · exact ⟨rfl, exists_rendered_index heol htexts⟩
    · exact ⟨rfl, exists_rendered_module heol htexts⟩

/-- A job with brackets in names, types, defaults and options, and with the names of files and of
    properties left as they are. -/
def bracketedJob : Job where
  policy := { fileCase := .verbatim, propertyCase := .verbatim, lazy := true }
  layout := ⟨["output"], false⟩
  entities :=
    [{ name := "User(a)"
       fileName := "[user]"
       table := "users"
       database := none
       schema := some "\x7bapp\x7d"
       columns := [⟨"id", "T[]", "int(4)", false, none, some "now()",
         [(.text "f()", .list [.text "[x]", .null])]⟩]
       relations := [⟨.manyToOne, "User(a)", "boss", some "staff", some [⟨"id", some "id"⟩],
         some ⟨"t", [⟨"a", none⟩], []⟩, [(.text "lazy", .map [(.text "()", .bool true)])]⟩]
       indices := [⟨"i", ["id"], []⟩] }]
  module := "app"
  extension := "ts"
  eol := .ok .lf
  platform := "\n"
  indexFile := true

theorem jsonValued_bracketedJob : ∀ e ∈ bracketedJob.entities, JsonValued e := by
  intro e he
  rw [List.mem_singleton.mp he]
  constructor
  · exact List.forall_mem_singleton.mpr ⟨⟨by decide, by decide⟩, by decide⟩
  · exact List.forall_mem_singleton.mpr ⟨⟨by decide, by decide⟩, by decide⟩
  · exact List.forall_mem_singleton.mpr ⟨⟨by decide, by decide⟩, by decide⟩

theorem nested_bracketedJob : IsNested "\n" ∧ (∀ s ∈ bracketedJob.texts, IsNested s) ∧
    (∀ e ∈ bracketedJob.entities, JsonValued e) ∧ bracketedJob.Nested := by
  have heol : IsNested "\n" := isNested_ofList (by decide)
  have htexts : ∀ s ∈ bracketedJob.texts, IsNested s := by decide +kernel
  exact ⟨heol, htexts, jsonValued_bracketedJob, Job.rendered_nested (j := bracketedJob) heol htexts⟩

end Scaffold.Generation
