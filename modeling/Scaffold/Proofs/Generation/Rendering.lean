import Scaffold.Proofs.Generation.Related
import Scaffold.Proofs.Generation.Writes
import Scaffold.Proofs.Schema.Plain

/-!
# `Scaffold.Proofs.Generation.Rendering` — every template of a run is rendered

Of all that can go wrong where a template is rendered only one thing does: the options of a decorator
may hold what cannot be written, and then the model of their entity has no text (`text_cases`). A name
that is missing, and an entry that is, are not among it. Entities of a JSON document have such options
nowhere, so every template that a run over them needs is rendered, whatever the conventions, the layout
and the entities are (`generate_rendered`).

## Contents
- **Faults.** `text_cases`, `Writes.exists_of_render`.
- **Templates.** `Job.Rendered`, `exists_render_of_text`, `rendered_of_jsonValued`.
- **Documents.** `jsonValued_of_fromJson`, `generate_rendered`.
-/

namespace Scaffold.Generation

open Disk (Path)
open Json (IsJson)
open Naming (Policy)
open Schema (Entity Options)
open Source (RenderFault Scope Template)

/-! ## Faults -/

/-- The only reason why a file may lack a text: options that cannot be written, in a model. -/
theorem text_cases {j : Job} {eol : Text.Eol} (heol : j.eol = .ok eol) :
    ∀ x ∈ j.sequence, (∃ text, x.text = .ok text) ∨
      ∃ e ∈ j.entities, x = j.entityDraft .model e ∧ ∃ cause, x.text = .error (.unwritable cause) := by
  have hfinished : ∀ a ls, ∃ text, j.finished a ls = .ok text :=
    fun a ls => ⟨_, j.finished_eq heol a ls⟩
  intro x hx
  rcases Job.mem_sequence_cases hx with ⟨a, ha, e, he, rfl⟩ | rfl | rfl | rfl
  · rcases Layout.cases_entityKind ha with rfl | rfl | rfl | rfl
    · rw [Job.text_model]
      cases Source.modelLines j.policy (Path.moduleFrom (j.layout.directory .model)
          (j.layout.root ++ [Layout.commonName])) j.entityFiles e.forModel with
      | error cause => exact .inr ⟨e, he, rfl, cause, rfl⟩
      | ok ls => exact .inl (hfinished .model ls)
    · rw [Job.text_dto]
      exact .inl (hfinished _ _)
    · exact .inl (hfinished _ _)
    · exact .inl (hfinished _ _)
  · rw [Job.text_index]
    exact .inl (hfinished _ _)
  · rw [Job.text_module]
    exact .inl (hfinished _ _)
  · rw [Job.text_project, Job.normalized, heol]
    exact .inl ⟨_, rfl⟩

/-- A run that ends at a template has come to a file without a text. -/
theorem Writes.exists_of_render {f : Formatter} {root : Path} {d d' : Disk} {xs : List Draft}
    {rs : List FileRecord} {fault : RenderFault}
    (h : Writes f root d xs rs d' (some (.render fault))) : ∃ x ∈ xs, x.text = .error fault := by
  induction xs generalizing d rs with
  | nil => cases h
  | cons x xs ih =>
      cases h with
      | next hx hwrite hrecord rest =>
          obtain ⟨y, hy, htext⟩ := ih rest
          exact ⟨y, List.mem_cons_of_mem _ hy, htext⟩
      | unrendered hx => exact ⟨x, List.mem_cons_self, hx⟩

/-- A job that ends at a template has a file without a text. -/
theorem exists_of_run_render {j : Job} {f : Formatter} {d : Disk} {fault : RenderFault}
    (h : (j.run f d).result = .error (.stopped (.render fault))) :
    ∃ x ∈ j.sequence, x.text = .error fault := by
  have hwrites := j.writes_course f d
  obtain ⟨failure, -, hrun⟩ | ⟨made, -, ⟨stop, hstop, hrun⟩ | ⟨-, hrun⟩⟩ := j.run_eq f d
  · rw [hrun] at h
    exact nomatch h
  · rw [hrun] at h
    cases h
    rw [hstop] at hwrites
    exact hwrites.exists_of_render
  · rw [hrun] at h
    exact nomatch h

/-- Nothing stops a run before it begins. -/
theorem prepare_ne_stopped {w : Workspace} {es : List Entity} {o : Options} (h : o.Legal)
    (stop : Stop) : prepare w es o.settings ≠ .error (.stopped stop) := by
  rw [prepare_settings h]
  split
  · simp
  · split <;> simp

/-! ## Templates -/

/-- **Every template that the files of a job are made from is rendered**, with what is in scope for it:
    for an entity what its kind of file sees of it, for the files for all what is said of each entity;
    and in either case the ways to the other files, and what they are called after. -/
structure Job.Rendered (j : Job) : Prop where
  entity : ∀ a ∈ Layout.entityKinds, ∀ e ∈ j.entities, ∃ p text, project? e a = some p ∧
    (Template.ofArtifact a).render j.policy
      { Job.entityScope p with
        paths := some (j.layout.importPrefixes a), entityFiles := some j.entityFiles }
      j.platform = .ok text
  joint : ∀ a, a = .index ∨ a = .module → ∃ text,
    (Template.ofArtifact a).render j.policy
      { j.jointScope with
        paths := some (j.layout.importPrefixes a), entityFiles := some j.entityFiles }
      j.platform = .ok text
  project : ∃ text, Template.project.render j.policy {} j.platform = .ok text

/-- A file that has a text was rendered before its text was finished. -/
theorem exists_render_of_text {j : Job} {a : Artifact} {scope : Scope} {text : String}
    (h : j.text a scope = .ok text) : ∃ rendered, (Template.ofArtifact a).render j.policy
      { scope with
        paths := some (j.layout.importPrefixes a), entityFiles := some j.entityFiles }
      j.platform = .ok rendered := by
  obtain ⟨rendered, hrendered, -⟩ := Results.bind_eq_ok.mp h
  exact ⟨rendered, hrendered⟩

theorem rendered_of_jsonValued {j : Job} (h : ∀ e ∈ j.entities, JsonValued e) : j.Rendered := by
  -- what is rendered does not depend on the line ending that the files get afterwards
  let k : Job := { j with eol := .ok .lf }
  have hfinished : ∀ a ls, ∃ text, k.finished a ls = .ok text :=
    fun a ls => ⟨_, k.finished_eq rfl a ls⟩
  constructor
  · intro a ha e he
    obtain ⟨p, hp⟩ := exists_project? ha e
    obtain ⟨text, htext⟩ := exists_text (j := k) rfl h _ (Job.mem_sequence ha he)
    have hscope : k.text a (Job.entityScope p) = .ok text := by
      rw [← htext]
      unfold Job.entityDraft
      rw [hp]
      rfl
    obtain ⟨rendered, hrendered⟩ := exists_render_of_text hscope
    exact ⟨p, rendered, hp, hrendered⟩
  · have hjoint : ∀ a, (a = .index ∨ a = .module) → ∃ text, (k.jointDraft a).text = .ok text := by
      rintro a (rfl | rfl)
      · rw [Job.text_index]
        exact hfinished _ _
      · rw [Job.text_module]
        exact hfinished _ _
    intro a ha
    obtain ⟨text, htext⟩ := hjoint a ha
    exact exists_render_of_text (j := k) htext
  · exact ⟨_, rfl⟩

/-! ## Documents -/

/-- What comes from JSON values has options that JSON documents can hold. -/
theorem jsonValued_of_fromJson {e : Entity} (h : e.FromJson Json.writeLimit) : JsonValued e where
  columns c hc := by
    obtain ⟨v, hv, hread⟩ := h.columns c hc
    exact Schema.Column.isJson_of_read hv hread
  relations r hr := by
    obtain ⟨v, hv, hread⟩ := h.relations r hr
    exact Schema.Relation.isJson_of_read hv hread
  indices i hi := by
    obtain ⟨v, hv, hread⟩ := h.indices i hi
    exact Schema.Index.isJson_of_read hv hread

theorem jsonValued_of_readDocument {platform : String} {doc : Entries}
    (hdoc : IsJson Json.depthLimit (.map doc)) {es : List Entity} {o : Options}
    (h : (Schema.readDocument platform doc).result = .ok (es, o)) : ∀ e ∈ es, JsonValued e :=
  fun e he => jsonValued_of_fromJson (Schema.fromJson_of_readDocument hdoc h e he)

/-- **Every template that a run needs is rendered.** The entities are those of a document that JSON can
    hold, with collections no deeper inside each other than in a text that is read; every document is one
    that was read from a JSON text (`Json.isJson_of_read`). They may lack columns, a key, relations and
    indices. Whatever the conventions and the layout are, each template is rendered with what is in scope
    for it; and with options that were read the texts of all files are there, and no run ends at a
    template. -/
theorem generate_rendered {platform : String} {doc : Entries}
    (hdoc : IsJson Json.depthLimit (.map doc)) {es : List Entity} {own : Options}
    (hread : (Schema.readDocument platform doc).result = .ok (es, own)) :
    (∀ j : Job, j.entities = es → j.Rendered) ∧
      ∀ (w : Workspace) (platform' : String) (v : Value) (o : Options),
        Options.read platform' v = .valid o →
        ∃ p, Policy.ofRequest o.settings.naming = .ok p ∧
          (∀ j, prepare w es o.settings = .ok j →
            j.policy = p ∧ j.Rendered ∧ ∀ x ∈ j.plan.flatMap Step.drafts, ∃ text, x.text = .ok text) ∧
          ∀ formatter fault,
            (generate w formatter es o.settings).result ≠ .error (.stopped (.render fault)) := by
  have hvalues := jsonValued_of_readDocument hdoc hread
  refine ⟨fun j hj => rendered_of_jsonValued (hj ▸ hvalues), fun w platform' v o ho => ?_⟩
  have hlegal := Schema.legal_of_read ho
  -- the texts of a job with these options are there
  have htexts : ∀ j, prepare w es o.settings = .ok j → j.policy = o.policy hlegal ∧
      j.entities = es ∧ ∀ x ∈ j.sequence, ∃ text, x.text = .ok text := by
    intro j hj
    obtain ⟨root, -, -, rfl⟩ := prepare_eq_ok hlegal hj
    exact ⟨rfl, rfl, exists_text rfl hvalues⟩
  refine ⟨o.policy hlegal, ofRequest_settings o hlegal, fun j hj => ?_, fun formatter fault h => ?_⟩
  · obtain ⟨hpolicy, hentities, htext⟩ := htexts j hj
    rw [j.flatMap_drafts_plan]
    exact ⟨hpolicy, rendered_of_jsonValued (hentities ▸ hvalues), htext⟩
  · cases hj : prepare w es o.settings with
    | error f =>
        rw [generate_of_fault hj] at h
        cases h
        exact prepare_ne_stopped hlegal _ hj
    | ok j =>
        rw [generate_of_prepare hj] at h
        obtain ⟨x, hx, hfault⟩ := exists_of_run_render h
        obtain ⟨text, htext⟩ := (htexts j hj).2.2 x hx
        exact nomatch hfault.symm.trans htext

/-- The templates for a user and a team that refers to it. -/
theorem rendered_team : (teamJob ["user"]).Rendered ∧
    ∀ formatter fault, (generate (.ofDisk ⟨[]⟩) formatter (teamEntities ["user"])
      (Options.standard "\n").settings).result ≠ .error (.stopped (.render fault)) := by
  have hdoc : IsJson Json.depthLimit (.map (teamDocument ["user"])) :=
    ⟨⟨by decide, by decide⟩, by decide⟩
  obtain ⟨hrendered, hrun⟩ := generate_rendered hdoc readDocument_team
  obtain ⟨p, -, -, hnever⟩ := hrun (.ofDisk ⟨[]⟩) "\n" (.map []) (Options.standard "\n")
    (Schema.read_nil "\n")
  exact ⟨hrendered (teamJob ["user"]) rfl, hnever⟩

end Scaffold.Generation
