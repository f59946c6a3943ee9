import Scaffold.Proofs.Generation.Written

/-!
# `Scaffold.Proofs.Generation.Formatting` — what a formatter can do to a run

A formatter is asked about every file on its own. Where it gives a text, that is written; where it does
not, the file is written as it is, and the report says so. It decides neither which files there are nor
whether they can be written, so that a run which succeeds without formatting succeeds with every
formatter (`generate_formatted`).

## Contents
- **Pages.** `Page`, `Draft.page`, `Page.printed`, `Page.diagnostic?`, `mapM_written`.
- **Complaints.** `Draft.unformatted?`, `unformatted_follow`, `filterMap_unformatted`.
- **Runs.** `Job.origins`, `exists_course_of_run`, `succeeds_with_formatter`.
- **The theorem.** `Formatted`, `generate_formatted`.
-/

namespace Scaffold.Generation

open Disk (Path)
open Schema (Entity Options Settings)
open Source (RenderFault)

/-! ## Pages -/

/-- A file before it is formatted: its place, what it is made from, its language, and its text. -/
structure Page where
  place : Path
  source : String
  parser : String
  text : String

/-- The page of a draft, if its text can be rendered. -/
def Draft.page (x : Draft) : Except RenderFault Page :=
  x.text.map fun text => ⟨x.place, x.source, x.parser, text⟩

namespace Page

/-- The file as it is. -/
def plain (p : Page) : Path × String := (p.place, p.text)

/-- The file with the text that a formatter gives, or as it is if the formatter refuses it. -/
def printed (f : Formatter) (p : Page) : Path × String :=
  (p.place,
    match f p.text p.parser with
    | .ok formatted => formatted
    | .error _ => p.text)

/-- What a report says of a file that a formatter refuses. -/
def diagnostic? (f : Formatter) (p : Page) : Option String :=
  match f p.text p.parser with
  | .ok _ => none
  | .error complaint => some (p.source ++ ": " ++ complaint.message)

end Page

theorem written_of_page {x : Draft} {p : Page} (h : x.page = .ok p) (f : Formatter) :
    x.written f = .ok (p.printed f) := by
  obtain ⟨text, htext, rfl⟩ := Results.map_eq_ok.mp h
  unfold Draft.written
  rw [htext]
  simp only [Except.map, Page.printed, Formatter.apply]
  cases f text x.parser <;> rfl

/-- **A formatter is asked about one page after another.** -/
theorem mapM_written {xs : List Draft} {pages : List Page} (h : xs.mapM Draft.page = .ok pages)
    (f : Formatter) : xs.mapM (Draft.written f) = .ok (pages.map (Page.printed f)) := by
  have hall := Results.mapM_eq_ok.mp h
  clear h
  induction hall with
  | nil => rfl
  | cons hx _ ih => exact Results.mapM_cons_eq_ok.mpr ⟨_, _, written_of_page hx f, ih, rfl⟩

theorem exists_pages {f : Formatter} {xs : List Draft} {files : List (Path × String)}
    (h : xs.mapM (Draft.written f) = .ok files) : ∃ pages, xs.mapM Draft.page = .ok pages := by
  have hall := Results.mapM_eq_ok.mp h
  clear h
  induction hall with
  | nil => exact ⟨[], rfl⟩
  | cons hx _ ih =>
      obtain ⟨pages, hpages⟩ := ih
      obtain ⟨text, htext, -⟩ := Results.map_eq_ok.mp hx
      exact ⟨_, Results.mapM_cons_eq_ok.mpr
        ⟨_, _, Results.map_eq_ok.mpr ⟨text, htext, rfl⟩, hpages, rfl⟩⟩

/-! ## Complaints -/

/-- What becomes known when the file of a draft cannot be formatted. -/
def Draft.unformatted? (f : Formatter) (x : Draft) : Option Unformatted :=
  match x.text with
  | .error _ => none
  | .ok text => (f.apply text x.source x.parser).2

variable {f : Formatter} {root : Path}

/-- One step: whether other files can be formatted makes no difference to a complaint. -/
theorem unformatted_emit (d : Disk) (xs : List Draft) (h : (emit f root d xs).stop = none) :
    (emit f root d xs).unformatted = xs.filterMap (Draft.unformatted? f) := by
  induction xs generalizing d with
  | nil => rfl
  | cons x xs ih =>
      unfold emit at h ⊢
      cases htext : x.text with
      | error fault =>
          rw [htext] at h
          exact absurd h (by simp)
      | ok text =>
          have hsays : x.unformatted? f = (f.apply text x.source x.parser).2 := by
            unfold Draft.unformatted?
            rw [htext]
          rw [htext] at h
          simp only at h ⊢
          generalize writeBelow d root x.directory x.name
            (f.apply text x.source x.parser).1 = o at h ⊢
          obtain ⟨d', o⟩ := o
          cases o with
          | error fault => exact absurd h (by simp)
          | ok record =>
              simp only at h ⊢
              rw [ih d' h, List.filterMap_cons, hsays]
              cases (f.apply text x.source x.parser).2 <;> rfl

/-- **A run that goes through has told of every file that could not be formatted**, in order. -/
theorem unformatted_follow (d : Disk) (reached : Phase) (steps : List Step)
    (h : (follow f root d reached steps).stop = none) :
    (follow f root d reached steps).unformatted =
      (steps.flatMap Step.drafts).filterMap (Draft.unformatted? f) := by
  induction steps generalizing d reached with
  | nil => rfl
  | cons s steps ih =>
      unfold follow at h ⊢
      simp only at h ⊢
      split at h
      · exact nomatch h
      · rename_i hstop
        rw [List.flatMap_cons, List.filterMap_append, ← unformatted_emit d s.drafts hstop,
          ← ih _ _ h]

/-- The complaints of drafts are those of their pages. -/
theorem filterMap_unformatted {xs : List Draft} {pages : List Page}
    (h : xs.mapM Draft.page = .ok pages) :
    (xs.filterMap (Draft.unformatted? f)).map Unformatted.diagnostic =
      pages.filterMap (Page.diagnostic? f) := by
  have hone : ∀ {x : Draft} {p : Page}, x.page = .ok p →
      (x.unformatted? f).map Unformatted.diagnostic = p.diagnostic? f := by
    intro x p hp
    obtain ⟨text, htext, rfl⟩ := Results.map_eq_ok.mp hp
    unfold Draft.unformatted?
    rw [htext]
    unfold Page.diagnostic? Formatter.apply
    simp only
    cases f text x.parser <;> rfl
  have hall := Results.mapM_eq_ok.mp h
  clear h
  rw [List.map_filterMap]
  induction hall with
  | nil => rfl
  | cons hx _ ih => rw [List.filterMap_cons, List.filterMap_cons, hone hx, ih]

/-! ## Runs -/

/-- What the files of a run are made from and the languages they are written in, in the order of the
    run. -/
def Job.origins (j : Job) : List (String × String) :=
  let tables := j.entities.map fun e => (e.table, "typescript")
  (if j.indexFile then [("index", "typescript")] else []) ++ tables ++ tables ++ tables ++
    [("module", "typescript")] ++ tables ++
    (if j.layout.flat then [] else [("tsconfig", "json")])

/-- The pages of a run tell its origins. -/
theorem map_origin_pages {j : Job} {pages : List Page} (h : j.sequence.mapM Draft.page = .ok pages) :
    pages.map (fun p => (p.source, p.parser)) = j.origins := by
  have hdrafts : pages.map (fun p => (p.source, p.parser)) =
      j.sequence.map fun x => (x.source, x.parser) := by
    have hall := Results.mapM_eq_ok.mp h
    clear h
    generalize j.sequence = xs at hall ⊢
    induction hall with
    | nil => rfl
    | cons hx _ ih =>
        obtain ⟨text, -, rfl⟩ := Results.map_eq_ok.mp hx
        rw [List.map_cons, List.map_cons, ih]
  have hkind : ∀ a, (fun x : Draft => (x.source, x.parser)) ∘ j.entityDraft a =
      fun e => (e.table, "typescript") := fun a => rfl
  rw [hdrafts]
  unfold Job.sequence Job.origins
  simp only [List.map_append, List.map_map, hkind]
  cases j.indexFile <;> cases j.layout.flat <;> rfl

/-- The report of a run that succeeds is about a course that no stop ended. -/
theorem exists_course_of_run {j : Job} {d : Disk} {report : Report}
    (h : (j.run f d).result = .ok report) :
    ∃ made, (j.ready d).2 = .ok made ∧
      report = reportOf j made (j.course f d) ∧ (j.course f d).stop = none := by
  obtain ⟨failure, -, hrun⟩ | ⟨made, hmade, ⟨stop, -, hrun⟩ | ⟨hstop, hrun⟩⟩ := j.run_eq f d
  · rw [hrun] at h
    exact nomatch h
  · rw [hrun] at h
    exact nomatch h
  · rw [hrun] at h
    exact ⟨made, hmade, (Except.ok.inj h).symm, hstop⟩

/-- **A run that succeeds with one formatter succeeds with every other one**, for formatters decide
    neither where files go nor what can be written. -/
theorem succeeds_with_formatter {j : Job} {d : Disk} {report : Report}
    (h : (j.run f d).result = .ok report) (g : Formatter) :
    ∃ report', (j.run g d).result = .ok report' := by
  obtain ⟨⟨made, hmade⟩, hfiles, hrecords⟩ := Job.filesWritten_of_run h
  obtain ⟨pages, hpages⟩ := exists_pages hfiles
  have hfiles' := mapM_written hpages g
  have hpaths : (pages.map (Page.printed g)).map Prod.fst = (j.filesWritten f d).map Prod.fst :=
    (map_place_of_written hfiles').trans (map_place_of_written hfiles).symm
  have hroot : ∀ x ∈ pages.map (Page.printed g), j.layout.root <+: x.1 := by
    intro x hx
    obtain ⟨y, hy, hyx⟩ : ∃ y ∈ j.filesWritten f d, y.1 = x.1 :=
      List.mem_map.mp (hpaths ▸ List.mem_map_of_mem hx)
    exact hyx ▸ prefix_of_recorded hrecords y hy
  rcases run_cases j g d hfiles' hroot with ⟨failure, hfail, -⟩ |
    ⟨_, -, ⟨report', hreport, -⟩ | ⟨before, p, text, after, failure, hsplit, hbefore, hfail, -⟩⟩
  · exact nomatch hmade.symm.trans hfail
  · exact ⟨report', hreport⟩
  · -- files with the same places were written before
    have herror := Disk.writeAll_eq_error (b := after) hbefore hfail
    have hsame := Disk.outline_writeAll_eq (d := (j.ready d).1) rfl hpaths
    rw [hsplit, herror, Job.writeAll_filesWritten] at hsame
    exact nomatch hsame

/-! ## The theorem -/

/-- **An outcome is that of a run with a formatter over some pages.** -/
structure Formatted (f : Formatter) (j : Job) (d : Disk) (pages : List Page)
    (written : List (Path × String)) (o : Outcome Report) : Prop where
  /-- Every page is written to its place, with the text of the formatter or as it is. -/
  files : written = pages.map (Page.printed f)
  /-- The disk is the one that writing them in order leads to. -/
  disk : (j.ready d).1.writeAll written = .ok o.disk
  /-- The run succeeds, and the report lists the files and what could not be formatted. -/
  reported : ∃ report, o.result = .ok report ∧ report.success = true ∧
    report.files.map FileRecord.place = pages.map Page.place ∧
    written.map (recorded j.layout.root) = report.files.map .ok ∧
    report.unformatted = pages.filterMap (Page.diagnostic? f)

theorem run_formatted {j : Job} {d : Disk} {report : Report} {pages : List Page}
    (h : (j.run f d).result = .ok report) (hpages : j.sequence.mapM Draft.page = .ok pages) :
    Formatted f j d pages (j.filesWritten f d) (j.run f d) := by
  obtain ⟨-, hfiles, hrecords⟩ := Job.filesWritten_of_run h
  have hwritten : j.filesWritten f d = pages.map (Page.printed f) :=
    Except.ok.inj (hfiles.symm.trans (mapM_written hpages f))
  obtain ⟨made, -, hreport, hstop⟩ := exists_course_of_run h
  refine ⟨hwritten, j.writeAll_filesWritten f d, report, h, ?_, ?_, hrecords, ?_⟩
  · rw [hreport]
    rfl
  · rw [place_of_recorded hrecords, hwritten, List.map_map]
    rfl
  · have hall := unformatted_follow _ _ _ hstop
    rw [j.flatMap_drafts_plan] at hall
    rw [hreport, ← filterMap_unformatted hpages, ← hall]
    rfl

/-- **A formatter can do nothing to a run but change texts and be complained about.** Where a run that
    leaves every text as it is succeeds, the pages that it writes are those of every run, whatever the
    formatter does with any of them. -/
theorem generate_formatted {w : Workspace} {es : List Entity} {s : Settings}
    (h : ∃ report, (generate w (some Formatter.keep) es s).result = .ok report) :
    ∃ job pages, prepare w es s = .ok job ∧
      pages.map (fun p => (p.source, p.parser)) = job.origins ∧
      writtenFiles w (some Formatter.keep) es s = pages.map Page.plain ∧
      ∀ formatter, Formatted (formatter.getD (ownFormatter w s)) job w.disk pages
        (writtenFiles w formatter es s) (generate w formatter es s) := by
  obtain ⟨report, hreport⟩ := h
  obtain ⟨job, hjob, hrun⟩ := exists_job_of_generate hreport
  rw [hrun] at hreport
  obtain ⟨pages, hpages⟩ := exists_pages (Job.filesWritten_of_run hreport).2.1
  refine ⟨job, pages, hjob, map_origin_pages hpages, ?_, fun formatter => ?_⟩
  · rw [writtenFiles_of_prepare hjob]
    exact (run_formatted hreport hpages).files
  · rw [writtenFiles_of_prepare hjob, generate_of_prepare hjob]
    obtain ⟨report', hreport'⟩ := succeeds_with_formatter hreport (formatter.getD (ownFormatter w s))
    exact run_formatted hreport' hpages

/-- The run over one entity on an empty disk succeeds, so that no formatter can stop it. -/
theorem formatted_bareEntity :
    (∃ report, (generate (.ofDisk ⟨[]⟩) (some Formatter.keep) [bareEntity "user"]
      (Options.standard "\n").settings).result = .ok report) ∧
    ∃ job pages,
      prepare (.ofDisk ⟨[]⟩) [bareEntity "user"] (Options.standard "\n").settings = .ok job ∧
      pages.map (fun p => (p.source, p.parser)) = job.origins ∧
      writtenFiles (.ofDisk ⟨[]⟩) (some Formatter.keep) [bareEntity "user"]
        (Options.standard "\n").settings = pages.map Page.plain ∧
      ∀ formatter, Formatted
        (formatter.getD (ownFormatter (.ofDisk ⟨[]⟩) (Options.standard "\n").settings)) job ⟨[]⟩ pages
        (writtenFiles (.ofDisk ⟨[]⟩) formatter [bareEntity "user"] (Options.standard "\n").settings)
        (generate (.ofDisk ⟨[]⟩) formatter [bareEntity "user"]
          (Options.standard "\n").settings) :=
  ⟨exists_report_bareEntity, generate_formatted exists_report_bareEntity⟩

end Scaffold.Generation
