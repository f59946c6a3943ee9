import Scaffold.Proofs.Generation.Formatting

/-!
# `Scaffold.Proofs.Generation.Steps` — what a report tells of the steps of a run

A run that goes through has a report about every step of its plan. What could not be formatted is told in
two places, by a line about the file and by a mark on the step that wrote it, and the two agree for all
files of entities, modules and indices (`generate_steps`). The step that writes the configuration of the
compiler is reported with a fixed detail and never marked, so that a report can tell of a file that could
not be formatted and mark no step (`exists_complaint_unmarked`).

## Contents
- **Steps.** `Step.complaints`, `complaints_ne_nil_iff`, `Told`, `told_report`, `told_follow`.
- **Reports.** `Job.projectReports`, `Job.KindTold`, `StepsTold`, `run_steps`, `generate_steps`,
  `steps_bareEntity`.
- **Silence.** `refusingJson`, `exists_complaint_unmarked`.
-/

namespace Scaffold.Generation

open Disk (Path)
open Schema (Entity Options Settings)

/-! ## Steps -/

/-- What a report says about the files of a step: one line for each that could not be formatted. -/
def Step.complaints (f : Formatter) (t : Step) : List String :=
  (t.drafts.filterMap (Draft.unformatted? f)).map Unformatted.diagnostic

variable {f : Formatter} {root : Path}

/-- Something is said of a step exactly if the formatter refuses the text of one of its files. -/
theorem complaints_ne_nil_iff {t : Step} : t.complaints f ≠ [] ↔
    ∃ x ∈ t.drafts, ∃ text complaint, x.text = .ok text ∧ f text x.parser = .error complaint := by
  have hone : ∀ x : Draft, x.unformatted? f ≠ none ↔
      ∃ text complaint, x.text = .ok text ∧ f text x.parser = .error complaint := by
    intro x
    unfold Draft.unformatted? Formatter.apply
    cases x.text with
    | error fault => simp
    | ok text => cases hf : f text x.parser <;> simp [hf]
  have hnone : t.complaints f = [] ↔ ∀ x ∈ t.drafts, x.unformatted? f = none := by
    rw [Step.complaints, List.map_eq_nil_iff, List.filterMap_eq_nil_iff]
  rw [ne_eq, hnone]
  push Not
  exact exists_congr fun x => and_congr_right fun _ => hone x

/-- **What is told of a step that is through.** It is marked as failed exactly if something was said of its
    files while they were written; a step with a fixed detail is not marked at all. -/
structure Told (f : Formatter) (t : Step) (r : StepReport) : Prop where
  title : r.title = t.title
  marked : t.detail = none → (r.success = false ↔ t.complaints f ≠ [])
  fixed : ∀ detail, t.detail = some detail → r = ⟨t.title, true, .zero false, detail⟩

/-- One step: the count of complaints that a report is made from is that of its own files. -/
theorem told_report (t : Step) (written : Nat) :
    Told f t (t.report written (t.drafts.filterMap (Draft.unformatted? f)).length) := by
  unfold Step.report
  cases hdetail : t.detail with
  | some detail =>
      refine ⟨rfl, fun h => absurd h (by simp [hdetail]), fun detail' h => ?_⟩
      rw [hdetail] at h
      cases h
      rfl
  | none =>
      refine ⟨rfl, fun _ => ?_, fun detail h => absurd h (by simp [hdetail])⟩
      unfold Step.complaints
      simp [List.length_eq_zero_iff]

/-- **A run that goes through tells of every step**, in order. -/
theorem told_follow (d : Disk) (reached : Phase) (ts : List Step)
    (h : (follow f root d reached ts).stop = none) :
    List.Forall₂ (Told f) ts (follow f root d reached ts).steps := by
  induction ts generalizing d reached with
  | nil => exact .nil
  | cons t ts ih =>
      unfold follow at h ⊢
      simp only at h ⊢
      split at h
      · exact nomatch h
      · rename_i hstop
        refine .cons ?_ (ih _ _ h)
        rw [unformatted_emit d t.drafts hstop]
        exact told_report t _

/-! ## Reports -/

/-- What is told of the step that writes the configuration of the compiler. -/
def Job.projectReports (j : Job) : List StepReport :=
  if j.layout.flat then [] else [⟨"Project Config", true, .zero false, projectFile⟩]

/-- What is told of the files of one kind: the report stands under the name of the kind, and is marked as
    failed exactly if something was said of these files while they were written. -/
def Job.KindTold (f : Formatter) (j : Job) (a : Artifact) (r : StepReport) : Prop :=
  r.title = titleOf a ∧ (r.success = false ↔ (j.kindStep a).complaints f ≠ [])

/-- **What a report tells of its steps.** -/
structure StepsTold (f : Formatter) (j : Job) (report : Report) : Prop where
  /-- The step of a kind of files is marked as failed exactly if the formatter was complained about
      while these files were written. No other step is marked. -/
  marked : ∃ made reports,
    report.steps = directoryReport made :: (reports ++ j.projectReports) ∧
      List.Forall₂ (j.KindTold f) j.kinds reports
  /-- The lines about files that could not be formatted are those about the files of each step. -/
  said : report.unformatted = j.kinds.flatMap (fun a => (j.kindStep a).complaints f) ++
    if j.layout.flat then [] else j.projectStep.complaints f
  /-- There are such lines exactly if a step is marked, or the configuration could not be formatted. -/
  agree : report.unformatted ≠ [] ↔ (∃ r ∈ report.steps, r.success = false) ∨
    j.layout.flat = false ∧ j.projectStep.complaints f ≠ []

/-- What is told of one list after another is told of each. -/
theorem exists_append_of_forall₂ {α β : Type} {R : α → β → Prop} {as bs : List α} {cs : List β}
    (h : List.Forall₂ R (as ++ bs) cs) :
    ∃ xs ys, cs = xs ++ ys ∧ List.Forall₂ R as xs ∧ List.Forall₂ R bs ys := by
  induction as generalizing cs with
  | nil => exact ⟨[], cs, rfl, .nil, h⟩
  | cons a as ih =>
      cases h with
      | cons hc hrest =>
          obtain ⟨xs, ys, rfl, hxs, hys⟩ := ih hrest
          exact ⟨_ :: xs, ys, rfl, .cons hc hxs, hys⟩

/-- The reports about a plan are those of its kinds, and that about the configuration. -/
theorem exists_reports_of_plan {j : Job} {rs : List StepReport}
    (h : List.Forall₂ (Told f) j.plan rs) :
    ∃ reports, rs = reports ++ j.projectReports ∧
      List.Forall₂ (j.KindTold f) j.kinds reports := by
  have hkinds : ∀ as reports, List.Forall₂ (Told f) (as.map j.kindStep) reports →
      List.Forall₂ (j.KindTold f) as reports := by
    intro as reports hall
    rw [List.forall₂_map_left_iff] at hall
    exact hall.imp fun a r hr => ⟨hr.title, hr.marked rfl⟩
  unfold Job.plan at h
  unfold Job.projectReports
  cases hflat : j.layout.flat with
  | true =>
      rw [hflat, if_pos rfl, List.append_nil] at h
      exact ⟨rs, by simp, hkinds _ _ h⟩
  | false =>
      rw [hflat, if_neg (by simp)] at h
      obtain ⟨reports, rest, rfl, hreports, hrest⟩ := exists_append_of_forall₂ h
      refine ⟨reports, ?_, hkinds _ _ hreports⟩
      cases hrest with
      | cons hr hnil =>
          cases hnil
          rw [hr.fixed Job.projectFile rfl]
          rfl

/-- A mark stands among the reports about kinds, or nowhere. -/
theorem exists_marked_iff {j : Job} {made : List Path} {reports : List StepReport}
    (h : List.Forall₂ (j.KindTold f) j.kinds reports) :
    (∃ r ∈ directoryReport made :: (reports ++ j.projectReports), r.success = false) ↔
      ∃ a ∈ j.kinds, (j.kindStep a).complaints f ≠ [] := by
  have hproject : ¬ ∃ r ∈ j.projectReports, r.success = false := by
    unfold Job.projectReports
    cases j.layout.flat <;> simp
  have hkinds : ∀ as rs, List.Forall₂ (j.KindTold f) as rs →
      ((∃ r ∈ rs, r.success = false) ↔ ∃ a ∈ as, (j.kindStep a).complaints f ≠ []) := by
    intro as rs hall
    induction hall with
    | nil => simp
    | cons hr _ ih => simp only [List.mem_cons, exists_eq_or_imp, hr.2, ih]
  rw [← hkinds _ _ h]
  simp only [List.mem_cons, exists_eq_or_imp]
  rw [directoryReport, or_iff_right Bool.noConfusion]
  simp only [List.mem_append, or_and_right, exists_or, hproject, or_false]

/-- A run over checked options that goes through tells of its steps. -/
theorem run_steps {j : Job} {d : Disk} {report : Report} (h : (j.run f d).result = .ok report) :
    StepsTold f j report := by
  obtain ⟨made, -, rfl, hstop⟩ := exists_course_of_run h
  obtain ⟨reports, hreports, hmarked⟩ := exists_reports_of_plan (told_follow _ _ _ hstop)
  have hsteps : (reportOf j made (j.course f d)).steps =
      directoryReport made :: (reports ++ j.projectReports) := congrArg _ hreports
  have hsaid : (reportOf j made (j.course f d)).unformatted =
      j.kinds.flatMap (fun a => (j.kindStep a).complaints f) ++
        if j.layout.flat then [] else j.projectStep.complaints f := by
    have hall : (j.course f d).unformatted = _ := unformatted_follow _ _ _ hstop
    have hlines : (j.course f d).unformatted.map Unformatted.diagnostic =
        j.plan.flatMap (Step.complaints f) := by
      rw [hall, List.filterMap_flatMap, List.map_flatMap]
      rfl
    refine hlines.trans ?_
    unfold Job.plan
    rw [List.flatMap_append, List.flatMap_map]
    cases j.layout.flat <;> simp
  refine ⟨⟨made, reports, hsteps, hmarked⟩, hsaid, ?_⟩
  rw [hsteps, exists_marked_iff hmarked, hsaid]
  cases j.layout.flat <;> simp [or_iff_not_imp_left]

/-- **A report marks the steps that it tells of**, all but the one that writes the configuration of the
    compiler. -/
theorem generate_steps {w : Workspace} {formatter : Option Formatter} {es : List Entity} {s : Settings}
    {report : Report} (h : (generate w formatter es s).result = .ok report) :
    ∃ job, prepare w es s = .ok job ∧ StepsTold (formatter.getD (ownFormatter w s)) job report := by
  obtain ⟨job, hjob, hrun⟩ := exists_job_of_generate h
  rw [hrun] at h
  exact ⟨job, hjob, run_steps h⟩

/-- The formatter that refuses every text. -/
def refusing : Formatter := fun _ _ => .error (.rejected "rejected" "")

/-- The run over one entity with this formatter. All of its files are complained of, and every step that
    writes one is marked but the last, which writes the configuration. -/
theorem steps_bareEntity : ∃ report,
    (generate (.ofDisk ⟨[]⟩) (some refusing) [bareEntity "user"]
      (Options.standard "\n").settings).result = .ok report ∧
    report.unformatted.length = 6 ∧
    report.steps.map StepReport.success = [true, false, false, false, false, false, true] ∧
    ∃ job, prepare (.ofDisk ⟨[]⟩) [bareEntity "user"] (Options.standard "\n").settings = .ok job ∧
      StepsTold refusing job report := by
  have hrun : (generate (.ofDisk ⟨[]⟩) (some refusing) [bareEntity "user"]
      (Options.standard "\n").settings).result.toOption.map (fun r =>
        (r.unformatted.length, r.steps.map StepReport.success)) =
          some (6, [true, false, false, false, false, false, true]) := by
    decide +kernel
  obtain ⟨report, hreport, htold⟩ := Option.map_eq_some_iff.mp hrun
  obtain ⟨hsaid, hmarked⟩ := Prod.mk.inj htold
  have hresult := Results.eq_ok_of_toOption hreport
  exact ⟨report, hresult, hsaid, hmarked, generate_steps hresult⟩

/-! ## Silence -/

/-- The formatter that refuses every text that is no program. -/
def refusingJson : Formatter := fun code parser =>
  if parser = "json" then .error (.rejected "rejected" "") else .ok code

/-- **A report can tell of a file that could not be formatted and mark no step.** -/
theorem exists_complaint_unmarked : ∃ report,
    (generate (.ofDisk ⟨[]⟩) (some refusingJson) [] (Options.standard "\n").settings).result =
      .ok report ∧
    report.unformatted = ["tsconfig: rejected"] ∧ ∀ r ∈ report.steps, r.success = true := by
  have hrun : (generate (.ofDisk ⟨[]⟩) (some refusingJson) []
      (Options.standard "\n").settings).result.toOption.map (fun r =>
        (r.unformatted, r.steps.all StepReport.success)) = some (["tsconfig: rejected"], true) := by
    decide +kernel
  obtain ⟨report, hreport, htold⟩ := Option.map_eq_some_iff.mp hrun
  obtain ⟨hsaid, hall⟩ := Prod.mk.inj htold
  exact ⟨report, Results.eq_ok_of_toOption hreport, hsaid, List.all_eq_true.mp hall⟩

end Scaffold.Generation
