import Mathlib.Data.List.Nodup
import Scaffold.Generation.Generate
import Scaffold.Proofs.Layout
import Scaffold.Proofs.Naming.Converted
import Scaffold.Proofs.Schema.Accepted

/-!
# `Scaffold.Proofs.Generation.Files` — the files of a run, named one by one

Legal options and a place for the results fix the job of a run (`prepare_of_legal`). Its files are
those of a fixed sequence, which does not speak of steps (`flatMap_drafts_plan`), and the phases that
it passes are those of the options (`map_phase_plan`).

## Contents
- **Jobs.** `Options.policy`, `Workspace.ofDisk`, `bareEntity`, `jobOf`, `prepare_settings`,
  `prepare_eq_ok`, `prepare_standard`.
- **Files.** `FiledAs`, `Job.lookup_entityFiles`, `Draft.place`, `Job.entityDraft`, `Job.sequence`,
  `Job.passed`, `flatMap_drafts_plan`, `mem_sequence_cases`, `map_phase_plan`.
- **Generating.** `generate_of_prepare`, `exists_job_of_generate`.
-/

namespace Scaffold

open Disk (Path)
open Naming (CaseStyle ExportForm Policy Strictness Visibility)
open Schema (Entity Options)

/-! ## Jobs -/

/-- The conventions that legal options fix. -/
def Schema.Options.policy (o : Options) (h : o.Legal) : Policy where
  entityCase := o.entityCase
  fileCase := o.fileCase
  propertyCase := o.propertyCase
  lazy := o.lazy
  visibility := o.visibility
  exportForm := o.exportForm
  strictness := o.strictness
  entityCase_legal := h.entityCase
  fileCase_legal := h.fileCase
  propertyCase_legal := h.propertyCase

namespace Generation

/-- The root of a disk, on a platform with line feeds and on a machine without programs. -/
def Workspace.ofDisk (d : Disk) : Workspace :=
  { disk := d, here := [], platform := "\n", machine := .bare }

/-- An entity that says nothing but its name. -/
def bareEntity (name : String) : Entity := ⟨name, name, name, none, none, [], [], []⟩

/-- The job of a run into a directory, without the checks. -/
def jobOf (w : Workspace) (es : List Entity) (o : Options) (h : o.Legal) (root : Path) : Job where
  policy := o.policy h
  layout := ⟨root, o.flat⟩
  entities := es
  module := root.name
  extension := o.extension
  eol := .ok o.eol
  platform := w.platform
  indexFile := o.indexFile

/-- A style is read back from its name. -/
theorem readLegal_name {s : CaseStyle} {styles : List CaseStyle} (h : s ∈ styles) (place : String) :
    Naming.readLegal (.text s.name) styles place = .ok ⟨s, h⟩ := by
  have hname : (Choice.ofValue? (.text s.name) : Option CaseStyle) = some s := by
    cases s <;> rfl
  unfold Naming.readLegal CaseStyle.read
  rw [hname]
  simp only [List.contains_iff_mem.mpr h, if_true, dif_pos h]

theorem ofRequest_settings (o : Options) (h : o.Legal) :
    Policy.ofRequest o.settings.naming = .ok (o.policy h) := by
  have hvisibility : (Naming.readChoice (.text (Choice.name o.visibility)) :
      Except _ Visibility) = .ok o.visibility := by
    cases o.visibility <;> rfl
  have hexport : (Naming.readChoice (.text (Choice.name o.exportForm)) :
      Except _ ExportForm) = .ok o.exportForm := by
    cases o.exportForm <;> rfl
  have hstrict : (Naming.readChoice (.text (Choice.name o.strictness)) :
      Except _ Strictness) = .ok o.strictness := by
    cases o.strictness <;> rfl
  have hentity := readLegal_name h.entityCase "entity names"
  have hfile := readLegal_name h.fileCase "file names"
  have hproperty := readLegal_name h.propertyCase "property names"
  unfold CaseStyle.name at hentity hfile hproperty
  unfold Policy.ofRequest Options.settings
  simp only [hentity, hfile, hproperty, hvisibility, hexport, hstrict, bind, Except.bind]
  rfl

variable {w : Workspace} {es : List Entity} {o : Options}

/-- With legal options a run is prepared if its place is found and has a name. -/
theorem prepare_settings (h : o.Legal) : prepare w es o.settings =
    match w.disk.resolve w.here o.resultsPath with
    | .error f => .error (.place f)
    | .ok root => if root = [] then .error (.noModule o.resultsPath) else .ok (jobOf w es o h root) := by
  have hpolicy : (Policy.ofRequest o.settings.naming).mapError Fault.policy = .ok (o.policy h) := by
    rw [ofRequest_settings o h]
    rfl
  have hresults : pathText o.settings.resultsPath = .ok o.resultsPath := rfl
  unfold prepare
  rw [hpolicy]
  simp only [bind, Except.bind, hresults]
  unfold Layout.resolve
  cases hroot : w.disk.resolve w.here o.resultsPath with
  | error f => rfl
  | ok root => cases root <;> rfl

/-- **Legal options and a place that has a name give a job.** -/
theorem prepare_of_legal (h : o.Legal) {root : Path}
    (hroot : w.disk.resolve w.here o.resultsPath = .ok root) (hne : root ≠ []) :
    prepare w es o.settings = .ok (jobOf w es o h root) := by
  rw [prepare_settings h, hroot]
  exact if_neg hne

/-- A job that legal options gave is the one they fix. -/
theorem prepare_eq_ok (h : o.Legal) {j : Job} (hj : prepare w es o.settings = .ok j) :
    ∃ root, w.disk.resolve w.here o.resultsPath = .ok root ∧ root ≠ [] ∧
      j = jobOf w es o h root := by
  rw [prepare_settings h] at hj
  cases hroot : w.disk.resolve w.here o.resultsPath with
  | error f =>
      rw [hroot] at hj
      exact absurd hj (by simp)
  | ok root =>
      rw [hroot] at hj
      by_cases hne : root = []
      · simp [hne] at hj
      · simp only [if_neg hne] at hj
        exact ⟨root, rfl, hne, (Except.ok.inj hj).symm⟩

/-- The job that a document without options gives on an empty disk. -/
theorem prepare_standard (es : List Entity) :
    prepare (.ofDisk ⟨[]⟩) es (Options.standard "\n").settings =
      .ok (jobOf (.ofDisk ⟨[]⟩) es (Options.standard "\n") (Schema.legal_standard "\n")
        ["output"]) := by
  have hroot : (Workspace.ofDisk ⟨[]⟩).disk.resolve (Workspace.ofDisk ⟨[]⟩).here
      (Options.standard "\n").resultsPath = .ok ["output"] := rfl
  exact prepare_of_legal (Schema.legal_standard "\n") hroot (by decide)

/-! ## Files -/

/-- An entity of a name is there, and its files are called after `file`. -/
def FiledAs (es : List Entity) (name file : String) : Prop :=
  ∃ e ∈ es, e.name = name ∧ e.fileName = file

theorem Job.mem_entityFiles {j : Job} {name file : String} :
    (name, file) ∈ j.entityFiles ↔ FiledAs j.entities name file := by
  simp [Job.entityFiles, FiledAs]

/-- What the files of an entity are called after is looked up by its name, where all names differ. -/
theorem Job.lookup_entityFiles {j : Job} (h : (j.entities.map Entity.name).Nodup)
    {name file : String} :
    j.entityFiles.lookup name = some file ↔ FiledAs j.entities name file := by
  have hkeys : (j.entityFiles.map Prod.fst).Nodup := by
    unfold Job.entityFiles
    rw [List.map_reverse, List.map_map]
    exact List.nodup_reverse.mpr h
  rw [Results.lookup_eq_some_iff hkeys, Job.mem_entityFiles]

/-- Where a file goes. -/
def Draft.place (x : Draft) : Path := x.directory.join x.name

/-- A kind that is made per entity sees something of each one. -/
theorem exists_project? {a : Artifact} (ha : a ∈ Layout.entityKinds) (e : Entity) :
    ∃ p, project? e a = some p := by
  rcases Layout.cases_entityKind ha with rfl | rfl | rfl | rfl <;> exact ⟨_, rfl⟩

namespace Job

/-- The file of a kind for one entity. -/
def entityDraft (j : Job) (a : Artifact) (e : Entity) : Draft where
  directory := j.layout.directory a
  name := j.fileName a e.fileName
  source := e.table
  parser := "typescript"
  text := j.text a ((project? e a).elim {} entityScope)

/-- All files of a run, in the order in which they are written. -/
def sequence (j : Job) : List Draft :=
  (if j.indexFile then [j.jointDraft .index] else []) ++
    j.entities.map (j.entityDraft .model) ++
    j.entities.map (j.entityDraft .service) ++
    j.entities.map (j.entityDraft .controller) ++
    [j.jointDraft .module] ++
    j.entities.map (j.entityDraft .dto) ++
    (if j.layout.flat then [] else [j.projectDraft])

/-- The phases that a run passes after its directories are there, before it is done. -/
def passed (j : Job) : List Phase :=
  (if j.indexFile then [.index] else []) ++
    [.models, .services, .controllers, .module, .dtos] ++
    (if j.layout.flat then [] else [.project])

theorem entityDrafts_eq (j : Job) {a : Artifact} (ha : a ∈ Layout.entityKinds) :
    j.entityDrafts a = j.entities.map (j.entityDraft a) := by
  unfold entityDrafts
  rw [← List.filterMap_eq_map]
  refine congrArg (List.filterMap · j.entities) (funext fun e => ?_)
  obtain ⟨p, hp⟩ := exists_project? ha e
  simp only [hp, Option.map_some, Function.comp, entityDraft, Option.elim]

/-- **The steps of a run make the files of the sequence.** -/
theorem flatMap_drafts_plan (j : Job) : j.plan.flatMap Step.drafts = j.sequence := by
  have hkind : ∀ a ∈ Layout.entityKinds, (j.kindStep a).drafts = j.entities.map (j.entityDraft a) := by
    intro a ha
    rw [← j.entityDrafts_eq ha]
    rcases Layout.cases_entityKind ha with rfl | rfl | rfl | rfl <;> rfl
  have hmodel := hkind .model (by decide)
  have hservice := hkind .service (by decide)
  have hcontroller := hkind .controller (by decide)
  have hdto := hkind .dto (by decide)
  have hindex : (j.kindStep .index).drafts = [j.jointDraft .index] := rfl
  have hmodule : (j.kindStep .module).drafts = [j.jointDraft .module] := rfl
  have hproject : j.projectStep.drafts = [j.projectDraft] := rfl
  unfold plan kinds sequence
  cases j.indexFile <;> cases j.layout.flat <;>
    simp [hmodel, hservice, hcontroller, hdto, hindex, hmodule, hproject]

theorem mem_sequence {j : Job} {a : Artifact} (ha : a ∈ Layout.entityKinds) {e : Entity}
    (he : e ∈ j.entities) : j.entityDraft a e ∈ j.sequence := by
  simp only [sequence, List.mem_append, List.mem_map]
  rcases Layout.cases_entityKind ha with rfl | rfl | rfl | rfl
  · exact .inl (.inl (.inl (.inl (.inl (.inr ⟨e, he, rfl⟩)))))
  · exact .inl (.inr ⟨e, he, rfl⟩)
  · exact .inl (.inl (.inl (.inl (.inr ⟨e, he, rfl⟩))))
  · exact .inl (.inl (.inl (.inr ⟨e, he, rfl⟩)))

/-- A file of a run is one for an entity or one of the three for all. -/
theorem mem_sequence_cases {j : Job} {x : Draft} (hx : x ∈ j.sequence) :
    (∃ a ∈ Layout.entityKinds, ∃ e ∈ j.entities, x = j.entityDraft a e) ∨
      x = j.jointDraft .index ∨ x = j.jointDraft .module ∨ x = j.projectDraft := by
  simp only [sequence, List.mem_append, List.mem_map, List.mem_singleton] at hx
  rcases hx with (((((hx | ⟨e, he, rfl⟩) | ⟨e, he, rfl⟩) | ⟨e, he, rfl⟩) | rfl) | ⟨e, he, rfl⟩) | hx
  · split at hx
    · exact .inr (.inl (List.mem_singleton.mp hx))
    · exact absurd hx List.not_mem_nil
  · exact .inl ⟨.model, by decide, e, he, rfl⟩
  · exact .inl ⟨.service, by decide, e, he, rfl⟩
  · exact .inl ⟨.controller, by decide, e, he, rfl⟩
  · exact .inr (.inr (.inl rfl))
  · exact .inl ⟨.dto, by decide, e, he, rfl⟩
  · split at hx
    · exact absurd hx List.not_mem_nil
    · exact .inr (.inr (.inr (List.mem_singleton.mp hx)))

/-- The steps of a run lead to the phases that it passes. -/
theorem map_phase_plan (j : Job) : j.plan.map Step.phase = j.passed := by
  unfold plan kinds passed
  cases j.indexFile <;> cases j.layout.flat <;> rfl

end Job

/-! ## Generating -/

section Generating

variable {formatter : Option Formatter} {s : Schema.Settings}

/-- Generating runs the job that was prepared. -/
theorem generate_of_prepare {j : Job} (hj : prepare w es s = .ok j) :
    generate w formatter es s = j.run (formatter.getD (ownFormatter w s)) w.disk := by
  unfold generate
  rw [hj]

/-- Without a job, generating does nothing. -/
theorem generate_of_fault {fault : Fault} (hj : prepare w es s = .error fault) :
    generate w formatter es s = ⟨w.disk, [], .error fault⟩ := by
  unfold generate
  rw [hj]

/-- Whoever succeeds in generating has run a job. -/
theorem exists_job_of_generate {report : Report}
    (h : (generate w formatter es s).result = .ok report) :
    ∃ j, prepare w es s = .ok j ∧
      generate w formatter es s = j.run (formatter.getD (ownFormatter w s)) w.disk := by
  cases hj : prepare w es s with
  | error fault =>
      rw [generate_of_fault hj] at h
      exact nomatch h
  | ok j => exact ⟨j, rfl, generate_of_prepare hj⟩

/-- Generating the files of one entity on an empty disk succeeds. -/
theorem exists_report_bareEntity : ∃ report,
    (generate (.ofDisk ⟨[]⟩) (some Formatter.keep) [bareEntity "user"]
      (Options.standard "\n").settings).result = .ok report :=
  Results.exists_eq_ok (by decide +kernel)

end Generating

end Generation

end Scaffold
