import Scaffold.Proofs.Generation.Related
import Scaffold.Proofs.Generation.Written
import Scaffold.Proofs.Source.OneLine
import Scaffold.Proofs.Source.Widening

/-!
# `Scaffold.Proofs.Generation.Endings` — files end their lines as the settings say

Templates end their lines as the platform does, and only then files are given the line ending of the
settings. Where no name breaks a line, nothing of the platform is left in the files: each has the line
ending that was asked for and no other, and with the longer one it is the file with the shorter one,
its breaks widened (`Follows`, `generate_endings`).

The name of the module is taken from the disk, and can break a line although nothing that was given
does (`not_lineEnded_linked`).

## Contents
- **Platforms.** `Workspace.on`, `Settings.ending`, `Job.on`, `prepare_on`.
- **Drafts.** `Draft.widened`, `Follows`, `pruned_widened`, `finished_on`, `follows_lines`.
- **Jobs.** `Job.Unbroken`, `follows_entityDraft`, `follows_drafts`, `follows_sequence`.
- **Runs.** `run_same`, `filesWritten_same`, `filesWritten_widened`, `ended_filesWritten`.
- **The theorem.** `LineEnded`, `generate_endings`.
- **Results behind a link.** `linkedPlace`, `linkedOptions`, `not_lineEnded_linked`.
-/

namespace Scaffold

/-- The settings with a line ending. -/
def Schema.Settings.ending (s : Schema.Settings) (e : Text.Eol) : Schema.Settings :=
  { s with eol := .ok e }

namespace Generation

open Disk (Path)
open Schema (Entity Options Settings)
open Source (Lines RenderFault joinLines)
open Text (Ended Eol IsLine IsLineEnding)

/-! ## Platforms -/

/-- The same surroundings on a platform. -/
def Workspace.on (w : Workspace) (platform : String) : Workspace := { w with platform }

/-- The same job on a platform, with a line ending. -/
def Job.on (j : Job) (platform : String) (e : Eol) : Job := { j with platform, eol := .ok e }

/-- Neither the platform nor the line ending decides whether there is a job, and what else it is. -/
theorem prepare_on (w : Workspace) (es : List Entity) (s : Settings) (p : String) (e : Eol) :
    prepare (w.on p) es (s.ending e) = (prepare w es s).map fun j => j.on p e := by
  have hlayout : ∀ results, Layout.resolve (w.on p).disk (w.on p).here results (s.ending e).flat =
      Layout.resolve w.disk w.here results s.flat := fun _ => rfl
  have hresults : (s.ending e).resultsPath = s.resultsPath := rfl
  have hnaming : (s.ending e).naming = s.naming := rfl
  unfold prepare
  simp only [hlayout, hresults, hnaming]
  cases (Naming.Policy.ofRequest s.naming).mapError Fault.policy with
  | error f => rfl
  | ok policy =>
      cases hpath : pathText s.resultsPath with
      | error f => rfl
      | ok results =>
          cases hplace : (Layout.resolve w.disk w.here results s.flat).mapError Fault.place with
          | error f =>
              simp only [bind, Except.bind, hplace]
              rfl
          | ok layout =>
              simp only [bind, Except.bind, hplace]
              cases moduleOf? layout.root <;> rfl

/-! ## Drafts -/

/-- The draft with longer line breaks. -/
def Draft.widened (x : Draft) : Draft := { x with text := x.text.map Source.widened }

/-- **Drafts follow their line ending**: nothing of the platform is left in them, their lines end as
    asked for, and with the longer ending they are those with the shorter one, widened. -/
structure Follows (xs : String → Eol → List Draft) : Prop where
  same : ∀ {p q}, IsLineEnding p → IsLineEnding q → ∀ e, xs p e = xs q e
  ended : ∀ {p}, IsLineEnding p → ∀ e, ∀ x ∈ xs p e, ∀ text, x.text = .ok text → Ended e text.toList
  widened : ∀ {p}, IsLineEnding p → xs p .crlf = (xs p .lf).map Draft.widened

theorem Follows.nil : Follows fun _ _ => [] where
  same _ _ _ := rfl
  ended _ _ _ h := absurd h List.not_mem_nil
  widened _ := rfl

theorem Follows.append {xs ys : String → Eol → List Draft} (hxs : Follows xs) (hys : Follows ys) :
    Follows fun p e => xs p e ++ ys p e where
  same hp hq e := by rw [hxs.same hp hq e, hys.same hp hq e]
  ended hp e x hx := by
    rcases List.mem_append.mp hx with hx | hx
    · exact hxs.ended hp e x hx
    · exact hys.ended hp e x hx
  widened hp := by rw [hxs.widened hp, hys.widened hp, List.map_append]

theorem Follows.flatMap {α : Type} {as : List α} {xs : α → String → Eol → List Draft}
    (h : ∀ a ∈ as, Follows (xs a)) : Follows fun p e => as.flatMap fun a => xs a p e := by
  induction as with
  | nil => exact Follows.nil
  | cons a as ih =>
      exact (h a List.mem_cons_self).append (ih fun b hb => h b (List.mem_cons_of_mem _ hb))

/-- Keeping the imports in use and widening can be done in either order. -/
theorem pruned_widened (a : Artifact) {s : String} (h : '\r' ∉ s.toList) :
    Job.pruned a (Source.widened s) = Source.widened (Job.pruned a s) ∧
      '\r' ∉ (Job.pruned a s).toList := by
  have hbase : Text.OneLine Source.baseClass.toList := by decide
  have hprune := Source.prune_widened hbase h
  have hpruned := Source.not_mem_prune Source.baseClass h
  have hboth : Source.removeEmptyImport (Source.prune (Source.widened s) Source.baseClass) =
      Source.widened (Source.removeEmptyImport (Source.prune s Source.baseClass)) := by
    rw [hprune, Source.removeEmptyImport_widened hpruned]
  have hfree := Source.not_mem_removeEmptyImport hpruned
  cases a with
  | index => exact ⟨rfl, h⟩
  | model => exact ⟨hprune, hpruned⟩
  | dto | service | controller | module => exact ⟨hboth, hfree⟩

/-- Lines are finished the same way on every platform. -/
theorem finished_on (j : Job) (a : Artifact) {ls : Lines} (hls : ∀ l ∈ ls, IsLine l) {p : String}
    (hp : IsLineEnding p) (e : Eol) :
    (j.on p e).finished a ls = .ok (Job.pruned a (joinLines e.sequence ls)) := by
  have hplatform : (j.on p e).platform = p := rfl
  have heol : (j.on p e).eol = .ok e := rfl
  have hend : Text.Apart p (joinLines p []).toList := fun _ => by simp [joinLines, Text.concat]
  have hrecast := Source.recast_joinLines (e := e) hp hls hend
  rw [List.append_nil] at hrecast
  have hnothing : Text.recast e p (joinLines p []).toList = [] := by
    unfold Text.recast
    split <;> rfl
  rw [Job.finished_eq _ heol, hplatform, Text.normalize_eq, hrecast, hnothing,
    List.append_nil, String.ofList_toList]

/-- **A draft that is made of lines follows its line ending**, if no line holds a break. -/
theorem follows_lines (j : Job) (a : Artifact) (x : Draft) (lines : Except RenderFault Lines)
    (h : ∀ ls, lines = .ok ls → ∀ l ∈ ls, IsLine l) :
    Follows fun p e => [{ x with text := lines.bind ((j.on p e).finished a) }] := by
  cases lines with
  | error fault =>
      refine ⟨fun _ _ _ => rfl, fun _ e y hy text htext => ?_, fun _ => rfl⟩
      rw [List.mem_singleton.mp hy] at htext
      exact nomatch htext
  | ok ls =>
      have hls := h ls rfl
      have hwide : joinLines "\r\n" ls = Source.widened (joinLines "\n" ls) :=
        (Source.widened_joinLines hls).symm
      obtain ⟨hpruned, hfree⟩ := pruned_widened a (Source.not_mem_joinLines hls)
      have htext : ∀ {p}, IsLineEnding p → ∀ e, (Except.ok ls).bind ((j.on p e).finished a) =
          .ok (Job.pruned a (joinLines e.sequence ls)) := fun hp e => finished_on j a hls hp e
      refine ⟨fun hp hq e => ?_, fun hp e y hy text hfinished => ?_, fun hp => ?_⟩
      · rw [htext hp, htext hq]
      · rw [List.mem_singleton.mp hy, htext hp] at hfinished
        cases hfinished
        cases e with
        | lf => exact hfree
        | crlf =>
            show Ended .crlf (Job.pruned a (joinLines "\r\n" ls)).toList
            rw [hwide, hpruned, Source.toList_widened]
            exact Text.ended_widen hfree
      · rw [htext hp, htext hp, List.map_singleton]
        show [{ x with text := .ok (Job.pruned a (joinLines "\r\n" ls)) }] =
          [{ x with text := .ok (Source.widened (Job.pruned a (joinLines "\n" ls))) }]
        rw [hwide, hpruned]

/-! ## Jobs -/

/-- No text breaks a line that gets into the files of a job. -/
structure Job.Unbroken (j : Job) : Prop where
  entities : ∀ e ∈ j.entities, e.Unbroken
  module : IsLine (j.policy.moduleName j.module)

variable {j : Job}

theorem isLine_importPrefix (l : Layout) (a b : Artifact) : IsLine (l.importPrefix a b) :=
  (isWay_importPrefix l a b).1.isLine

theorem Job.Unbroken.entityFiles (h : j.Unbroken) : Source.EntityFiles.Unbroken j.entityFiles := by
  intro x hx
  obtain ⟨e, he, -, hfile⟩ := Job.mem_entityFiles.mp hx
  exact hfile ▸ (h.entities e he).fileName

theorem Job.Unbroken.mentions (h : j.Unbroken) : ∀ m ∈ j.entities.map Job.mention, m.Unbroken := by
  intro m hm
  obtain ⟨e, he, rfl⟩ := List.mem_map.mp hm
  exact ⟨(h.entities e he).name, (h.entities e he).fileName⟩

theorem unbroken_forModel {e : Entity} (h : e.Unbroken) : e.forModel.Unbroken :=
  { h with columns := fun c hc => h.columns c (List.mem_filter.mp hc).1 }

theorem unbroken_forDto {e : Entity} (h : e.Unbroken) : e.forDto.Unbroken :=
  { h with
    columns := fun c hc => h.columns c (List.mem_filter.mp hc).1
    relations := fun r hr => h.relations r (List.mem_filter.mp hr).1 }

/-- A draft of which only the text depends on the platform and the line ending follows it, if its text
    is known by its lines. -/
theorem Follows.of_text (a : Artifact) (lines : Except RenderFault Lines)
    (h : ∀ ls, lines = .ok ls → ∀ l ∈ ls, IsLine l) {x : String → Eol → Draft} {y : Draft}
    (hx : ∀ p e, x p e = { y with text := (x p e).text })
    (htext : ∀ p e, (x p e).text = lines.bind ((j.on p e).finished a)) :
    Follows fun p e => [x p e] := by
  have hxs : (fun p e => [x p e]) =
      fun p e => [{ y with text := lines.bind ((j.on p e).finished a) }] :=
    funext fun p => funext fun e => by rw [hx, htext]
  rw [hxs]
  exact follows_lines j a y lines h

theorem isLine_of_ok {ls : Lines} (h : ∀ l ∈ ls, IsLine l) :
    ∀ ls', (.ok ls : Except RenderFault Lines) = .ok ls' → ∀ l ∈ ls', IsLine l :=
  fun _ heq => Except.ok.inj heq ▸ h

/-- The lines of a model, where it has some. -/
theorem modelLines_of_entityLines {e : Entity} {ls : Lines}
    (h : j.entityLines .model ⟨e.forModel, []⟩ = .ok ls) :
    Source.modelLines j.policy j.common j.entityFiles e.forModel = .ok ls := by
  rw [Job.lines_model] at h
  unfold Job.common
  cases hlines : Source.modelLines j.policy (Path.moduleFrom (j.layout.directory .model)
      (j.layout.root ++ [Layout.commonName])) j.entityFiles e.forModel with
  | error cause =>
      rw [hlines] at h
      exact nomatch h
  | ok ls' =>
      rw [hlines] at h
      cases h
      rfl

/-- **Lines of files hold no breaks**, if no text does that gets into them. -/
theorem isLine_entityLines (h : j.Unbroken) {a : Artifact} (ha : a ∈ Layout.entityKinds) {e : Entity}
    (he : e ∈ j.entities) {p : Projection} (hp : project? e a = some p) {ls : Lines}
    (hls : j.entityLines a p = .ok ls) : ∀ l ∈ ls, IsLine l := by
  have hentity := h.entities e he
  have hway := isLine_importPrefix j.layout
  rcases Layout.cases_entityKind ha with rfl | rfl | rfl | rfl
  · cases hp
    exact Source.isLine_modelLines j.policy (isWay_common j).1.isLine h.entityFiles
      (unbroken_forModel hentity) (modelLines_of_entityLines hls)
  · cases hp
    rw [Job.lines_dto] at hls
    cases hls
    exact Source.isLine_dtoLines j.policy h.entityFiles (unbroken_forDto hentity)
  · cases hp
    cases hls
    exact Source.isLine_serviceLines j.policy (hway _ _) (hway _ _) hentity
  · cases hp
    cases hls
    exact Source.isLine_controllerLines j.policy (hway _ _) (hway _ _) hentity
      (List.filter_sublist).subset

/-- **The file of a kind for an entity follows its line ending.** -/
theorem follows_entityDraft (h : j.Unbroken) {a : Artifact} (ha : a ∈ Layout.entityKinds) {e : Entity}
    (he : e ∈ j.entities) : Follows fun p eol => [(j.on p eol).entityDraft a e] := by
  obtain ⟨p, hp⟩ := exists_project? ha e
  exact Follows.of_text (y := j.entityDraft a e) a (j.entityLines a p)
    (fun ls hls => isLine_entityLines h ha he hp hls) (fun _ _ => rfl)
    fun platform eol => (j.on platform eol).text_of_project? e hp

theorem follows_entityDrafts (h : j.Unbroken) {a : Artifact} (ha : a ∈ Layout.entityKinds) :
    Follows fun p e => (j.on p e).entityDrafts a := by
  have hdrafts : (fun p e => (j.on p e).entityDrafts a) =
      fun p eol => j.entities.flatMap fun e => [(j.on p eol).entityDraft a e] := by
    funext p eol
    rw [Job.entityDrafts_eq _ ha, List.map_eq_flatMap]
    rfl
  rw [hdrafts]
  exact Follows.flatMap fun e he => follows_entityDraft h ha he

theorem follows_module (h : j.Unbroken) : Follows fun p e => [(j.on p e).jointDraft .module] := by
  have hway := isLine_importPrefix j.layout
  exact Follows.of_text (y := j.jointDraft .module) .module
    (.ok (Source.moduleLines j.policy (j.layout.importPrefix .module .model)
      (j.layout.importPrefix .module .service) (j.layout.importPrefix .module .controller)
      (j.entities.map Job.mention) j.module))
    (isLine_of_ok (Source.isLine_moduleLines j.policy (hway _ _) (hway _ _) (hway _ _)
      h.mentions h.module))
    (fun _ _ => rfl) fun p e => Job.text_module (j.on p e)

theorem follows_index (h : j.Unbroken) : Follows fun p e => [(j.on p e).jointDraft .index] :=
  Follows.of_text (y := j.jointDraft .index) .index
    (.ok (Source.indexLines j.policy (j.entities.map Job.mention)))
    (isLine_of_ok (Source.isLine_indexLines j.policy h.mentions))
    (fun _ _ => rfl) fun p e => Job.text_index (j.on p e)

theorem follows_project (j : Job) : Follows fun p e => [(j.on p e).projectDraft] := by
  -- the configuration of the compiler is finished as the index is: it has no imports
  exact Follows.of_text (j := j) (y := j.projectDraft) .index (.ok (Source.projectLines j.policy))
    (isLine_of_ok (Source.isLine_projectLines j.policy)) (fun _ _ => rfl) fun _ _ => rfl

/-- **The files of a kind follow their line ending.** -/
theorem follows_drafts (h : j.Unbroken) (a : Artifact) : Follows fun p e => (j.on p e).drafts a := by
  cases a with
  | model => exact follows_entityDrafts h (by decide)
  | dto => exact follows_entityDrafts h (by decide)
  | service => exact follows_entityDrafts h (by decide)
  | controller => exact follows_entityDrafts h (by decide)
  | module => exact follows_module h
  | index => exact follows_index h

/-- **All files of a run follow their line ending.** -/
theorem follows_sequence (h : j.Unbroken) : Follows fun p e => (j.on p e).sequence := by
  have hproject : Follows fun p e =>
      (if j.layout.flat then [] else [(j.on p e).projectStep]).flatMap Step.drafts := by
    cases j.layout.flat with
    | true => exact Follows.nil
    | false => exact follows_project j
  have hsequence : (fun p e => (j.on p e).sequence) = fun p e =>
      (j.kinds.flatMap fun a => (j.on p e).drafts a) ++
        (if j.layout.flat then [] else [(j.on p e).projectStep]).flatMap Step.drafts := by
    funext p e
    rw [← Job.flatMap_drafts_plan, Job.plan, List.flatMap_append, List.flatMap_map]
    rfl
  rw [hsequence]
  exact (Follows.flatMap fun a _ => follows_drafts h a).append hproject

/-! ## Runs -/

section Runs

variable {p q : String} (hp : IsLineEnding p) (hq : IsLineEnding q)
include hp hq

/-- **A run leaves nothing of the platform** behind, neither in the files nor in its report. -/
theorem run_same (h : j.Unbroken) (e : Eol) (f : Formatter) (d : Disk) :
    (j.on p e).run f d = (j.on q e).run f d := by
  have hstep : ∀ a, (j.on p e).kindStep a = (j.on q e).kindStep a := by
    intro a
    unfold Job.kindStep
    rw [(follows_drafts h a).same hp hq e]
  have hproject : (j.on p e).projectStep = (j.on q e).projectStep := by
    unfold Job.projectStep
    rw [(follows_project j).same hp hq e]
  have hplan : (j.on p e).plan = (j.on q e).plan := by
    unfold Job.plan
    rw [hproject, List.map_congr_left fun a _ => hstep a]
    rfl
  unfold Job.run
  rw [hplan]
  rfl

theorem filesWritten_same (h : j.Unbroken) (e : Eol) (f : Formatter) (d : Disk) :
    (j.on p e).filesWritten f d = (j.on q e).filesWritten f d := by
  unfold Job.filesWritten
  rw [(follows_sequence h).same hp hq e]
  rfl

end Runs

/-- A file with longer line breaks. -/
def widenedFile (file : Path × String) : Path × String := (file.1, Source.widened file.2)

theorem written_widened (x : Draft) :
    x.widened.written Formatter.keep = (x.written Formatter.keep).map widenedFile := by
  unfold Draft.widened Draft.written
  simp only
  cases x.text <;> rfl

/-- Whether a file is recorded does not depend on its text. -/
theorem map_recordOf (root target : Path) (s t : String) :
    (recordOf root target s).map (fun _ => ()) = (recordOf root target t).map fun _ => () := by
  unfold recordOf
  cases Path.below? root target <;> rfl

/-- **Drafts with longer line breaks are written where those with shorter ones are.** -/
theorem filesWritten_widened (root : Path) {d d' : Disk} (hd : d.outline = d'.outline)
    (xs : List Draft) :
    filesWritten Formatter.keep root d (xs.map Draft.widened) =
      (filesWritten Formatter.keep root d' xs).map widenedFile := by
  induction xs generalizing d d' with
  | nil => rfl
  | cons x xs ih =>
      rw [List.map_cons, filesWritten, filesWritten, written_widened]
      cases x.written Formatter.keep with
      | error fault => rfl
      | ok file =>
          obtain ⟨target, text⟩ := file
          -- the disks may differ in what their files hold, which decides nothing here
          have hwrite : (d.write target (Source.widened text)).map Disk.outline =
              (d'.write target text).map Disk.outline := by
            rw [Disk.outline_write, Disk.outline_write, hd]
          simp only [Except.map, widenedFile]
          rcases Results.cases_of_map_eq hwrite with ⟨f, hwide, hnarrow⟩ | ⟨e, e', hwide, hnarrow, he⟩
          · simp only [hwide, hnarrow]
            rfl
          · simp only [hwide, hnarrow, List.map_cons, widenedFile]
            rcases Results.cases_of_map_eq
              (map_recordOf root target (Source.widened text) text) with
              ⟨f, hr, hr'⟩ | ⟨r, r', hr, hr', -⟩
            · simp only [hr, hr', List.map_nil]
            · simp only [hr, hr', ih he]

/-- **With the longer line ending a run writes what it writes with the shorter one, widened.** -/
theorem filesWritten_crlf (h : j.Unbroken) {p : String} (hp : IsLineEnding p) (d : Disk) :
    (j.on p .crlf).filesWritten Formatter.keep d =
      ((j.on p .lf).filesWritten Formatter.keep d).map widenedFile := by
  have hready : ∀ e, (j.on p e).ready d = j.ready d := fun _ => rfl
  have hroot : ∀ e, (j.on p e).layout = j.layout := fun _ => rfl
  unfold Job.filesWritten
  rw [hready, hready, hroot, hroot, (follows_sequence h).widened hp]
  cases (j.ready d).2 with
  | error failure => rfl
  | ok made => exact filesWritten_widened j.layout.root rfl _

theorem ended_filesWritten (h : j.Unbroken) {p : String} (hp : IsLineEnding p) (e : Eol) (d : Disk) :
    ∀ file ∈ (j.on p e).filesWritten Formatter.keep d, Ended e file.2.toList := by
  intro file hfile
  obtain ⟨x, hx, hwritten⟩ := Job.exists_of_mem_filesWritten hfile
  obtain ⟨text, htext, rfl⟩ := Results.map_eq_ok.mp hwritten
  exact (follows_sequence h).ended hp e x hx text htext

/-! ## The theorem -/

theorem entities_of_prepare {w : Workspace} {es : List Entity} {s : Settings}
    (h : prepare w es s = .ok j) : j.entities = es := by
  obtain ⟨policy, -, h⟩ := Results.bind_eq_ok.mp h
  obtain ⟨results, -, h⟩ := Results.bind_eq_ok.mp h
  obtain ⟨layout, -, h⟩ := Results.bind_eq_ok.mp h
  split at h
  · exact nomatch h
  · cases h
    rfl

/-- **Runs that differ in the platform and the line ending only.** -/
structure LineEnded (w : Workspace) (formatter : Option Formatter) (es : List Entity) (s : Settings) :
    Prop where
  /-- The platform decides nothing: disk, messages, report and files are the same on every one. -/
  platform : ∀ {p q}, IsLineEnding p → IsLineEnding q → ∀ e,
    generate (w.on p) formatter es (s.ending e) = generate (w.on q) formatter es (s.ending e) ∧
      writtenFiles (w.on p) formatter es (s.ending e) = writtenFiles (w.on q) formatter es (s.ending e)
  /-- Every line break of a file is the one that was asked for. -/
  ended : ∀ {p}, IsLineEnding p → ∀ e, ∀ file ∈ writtenFiles (w.on p) formatter es (s.ending e),
    Ended e file.2.toList
  /-- The files with the longer line ending are those with the shorter one, each break widened. -/
  widened : ∀ {p q}, IsLineEnding p → IsLineEnding q →
    writtenFiles (w.on p) formatter es (s.ending .crlf) =
      (writtenFiles (w.on q) formatter es (s.ending .lf)).map fun x => (x.1, Source.widened x.2)

/-- **Files end their lines as the settings say, on every platform**, where no text of the entities
    breaks a line. Nor may the name of the results' directory, from which the class of the module has
    its name, where names of entities are left as they are. -/
theorem generate_endings {w : Workspace} {formatter : Option Formatter} {es : List Entity}
    {s : Settings} (hkeep : formatter.getD (ownFormatter w s) = Formatter.keep)
    (hes : ∀ e ∈ es, e.Unbroken)
    (hmodule : ∀ j, prepare w es s = .ok j → j.policy.entityCase = .verbatim → IsLine j.module) :
    LineEnded w formatter es s := by
  have hown : ∀ p e, formatter.getD (ownFormatter (w.on p) (s.ending e)) = Formatter.keep :=
    fun _ _ => hkeep
  have hdisk : ∀ p, (w.on p).disk = w.disk := fun _ => rfl
  cases hprepare : prepare w es s with
  | error fault =>
      have hon : ∀ p e, prepare (w.on p) es (s.ending e) = .error fault := by
        intro p e
        rw [prepare_on, hprepare]
        rfl
      have hnone : ∀ p e, writtenFiles (w.on p) formatter es (s.ending e) = [] :=
        fun p e => writtenFiles_of_fault (hon p e)
      refine ⟨fun _ _ e => ⟨?_, ?_⟩, fun _ e file hfile => ?_, fun _ _ => ?_⟩
      · rw [generate_of_fault (hon _ e), generate_of_fault (hon _ e)]
        rfl
      · rw [hnone, hnone]
      · rw [hnone] at hfile
        exact absurd hfile List.not_mem_nil
      · rw [hnone, hnone]
        rfl
  | ok j =>
      have hj : j.Unbroken :=
        ⟨entities_of_prepare hprepare ▸ hes, j.policy.isLine_className (hmodule j hprepare) .module rfl⟩
      have hon : ∀ p e, prepare (w.on p) es (s.ending e) = .ok (j.on p e) := by
        intro p e
        rw [prepare_on, hprepare]
        rfl
      have hwritten : ∀ p e, writtenFiles (w.on p) formatter es (s.ending e) =
          (j.on p e).filesWritten Formatter.keep w.disk := by
        intro p e
        rw [writtenFiles_of_prepare (hon p e), hown, hdisk]
      refine ⟨fun hp hq e => ⟨?_, ?_⟩, fun hp e => ?_, fun hp hq => ?_⟩
      · rw [generate_of_prepare (hon _ e), generate_of_prepare (hon _ e)]
        exact run_same hp hq hj e _ _
      · rw [hwritten, hwritten, filesWritten_same hp hq hj]
      · rw [hwritten]
        exact ended_filesWritten hj hp e w.disk
      · rw [hwritten, hwritten, filesWritten_crlf hj hp, filesWritten_same hp hq hj]
        rfl

/-- The files of one entity end their lines as the settings say. -/
theorem endings_bareEntity :
    (some Formatter.keep).getD (ownFormatter (.ofDisk ⟨[]⟩) (Options.standard "\n").settings) =
        Formatter.keep ∧
      (∀ e ∈ [bareEntity "user"], e.Unbroken) ∧
      (∀ j, prepare (.ofDisk ⟨[]⟩) [bareEntity "user"] (Options.standard "\n").settings = .ok j →
        j.policy.entityCase = .verbatim → IsLine j.module) ∧
      LineEnded (.ofDisk ⟨[]⟩) (some Formatter.keep) [bareEntity "user"]
        (Options.standard "\n").settings := by
  have hes : ∀ e ∈ [bareEntity "user"], e.Unbroken := by
    have huser : IsLine "user" := Text.isLine_ofList (by decide)
    intro e he
    rw [List.mem_singleton.mp he]
    exact ⟨huser, huser, huser, (fun _ h => nomatch h), (fun _ h => nomatch h),
      List.forall_mem_nil _, List.forall_mem_nil _, List.forall_mem_nil _⟩
  have hmodule : ∀ j,
      prepare (.ofDisk ⟨[]⟩) [bareEntity "user"] (Options.standard "\n").settings = .ok j →
        j.policy.entityCase = .verbatim → IsLine j.module := by
    have hstyle : (prepare (.ofDisk ⟨[]⟩) [bareEntity "user"]
        (Options.standard "\n").settings).toOption.all (fun j => j.policy.entityCase ≠ .verbatim) =
          true := by
      decide +kernel
    intro j hj hverbatim
    rw [hj] at hstyle
    exact absurd hverbatim (of_decide_eq_true hstyle)
  exact ⟨rfl, hes, hmodule, generate_endings rfl hes hmodule⟩

/-! ## Results behind a link -/

/-- A disk on which the directory of the results is a link to one whose name holds a break. -/
def linkedPlace : Workspace := .ofDisk ⟨[(["out"], .link "a\rb")]⟩

/-- Options with names as they are, and with breaks as the platform has them. -/
def linkedOptions : Options :=
  { Options.standard "\n" with
    resultsPath := "./out", entityCase := .verbatim, eol := .lf, formatter := .none }

/-- The lines of the module of a run there. -/
def linkedLines : Lines := Source.moduleLines { entityCase := .verbatim } "" "" "" [] "a\rb"

/-- **The name of a directory is no text of the options, and can break a line**: where the platform ends
    lines as asked for, the break in the name of the module's class stays as it is. -/
theorem not_lineEnded_linked : IsLine linkedOptions.resultsPath ∧ IsLine linkedOptions.extension ∧
    ¬ LineEnded linkedPlace (some Formatter.keep) [] linkedOptions.settings := by
  refine ⟨Text.isLine_ofList (by decide), Text.isLine_ofList (by decide), fun h => ?_⟩
  -- the text is found without reading it, for reading it through is slow
  have htext : (writtenFiles (linkedPlace.on "\n") (some Formatter.keep) []
      (linkedOptions.settings.ending .lf)).head?.map Prod.snd =
        some (Job.pruned .module (joinLines "\n" linkedLines)) := rfl
  have hreturn : '\r' ∈ (Job.pruned .module (joinLines "\n" linkedLines)).toList := by
    show '\r' ∈ (String.ofList (Source.removeEmptyChars (String.ofList (Source.pruneChars _
      (joinLines "\n" linkedLines).toList)).toList)).toList
    rw [String.toList_ofList, String.toList_ofList, Source.toList_joinLines]
    decide +kernel
  obtain ⟨file, hfile, hsnd⟩ := Option.map_eq_some_iff.mp htext
  have hended := h.ended (.inl rfl) .lf file (List.mem_of_mem_head? hfile)
  rw [hsnd] at hended
  exact hended hreturn

end Generation

end Scaffold
