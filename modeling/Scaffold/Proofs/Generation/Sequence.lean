import Scaffold.Proofs.Disk.Resolving
import Scaffold.Proofs.Generation.Places
import Scaffold.Proofs.Generation.Texts
import Scaffold.Proofs.Generation.Writes

/-!
# `Scaffold.Proofs.Generation.Sequence` — a run writes its files in order

Of a run whose options were read and whose entities consist of JSON values, everything is known
beforehand: the files with their texts, and the order in which they are written. Only the disk can
end it early, and then the files before the failure are there, and no other.

## Contents
- **Runs in order.** `InOrder`, `run_cases`, `run_inOrder`.
- **The theorem.** `generate_inOrder`.
-/

namespace Scaffold.Generation

open Disk (Path)
open Schema (Entity Options)

/-! ## Runs in order -/

/-- **An outcome is that of writing some files in order**, once the directories of a job are there. -/
structure InOrder (j : Job) (d : Disk) (files : List (Path × String)) (o : Outcome Report) :
    Prop where
  /-- Making the directories adds directories, and changes nothing else. -/
  added : Disk.DirectoriesAdded d (j.ready d).1
  /-- When they are made, every one is there. -/
  directories : ∀ made, (j.ready d).2 = .ok made →
    ∀ p ∈ j.layout.targets (!j.layout.flat), (j.ready d).1.status p = .ok .directory
  /-- A run succeeds exactly if every directory can be made and every file written. -/
  succeeds : (∃ report, o.result = .ok report) ↔
    (∃ made, (j.ready d).2 = .ok made) ∧ ∃ d', (j.ready d).1.writeAll files = .ok d'
  /-- Then all files are written, the report lists them in order, and it lists the phases. -/
  complete : ∀ report, o.result = .ok report →
    (j.ready d).1.writeAll files = .ok o.disk ∧
      files.map (recorded j.layout.root) = report.files.map .ok ∧
      report.phases = [.start, .directories] ++ j.passed ++ [.done]
  /-- If a directory cannot be made, no file is written. -/
  unprepared : ∀ failure, (j.ready d).2 = .error failure →
    o.disk = (j.ready d).1 ∧ o.result = .error (.stopped (.directories failure))
  /-- If a file cannot be written, those before it are, and no other. -/
  interrupted : ∀ made failure, (j.ready d).2 = .ok made →
    (j.ready d).1.writeAll files = .error failure →
    ∃ before p text after, files = before ++ (p, text) :: after ∧
      (j.ready d).1.writeAll before = .ok o.disk ∧ o.disk.write p text = .error failure ∧
      o.result = .error (.stopped (.write (.disk failure)))

theorem exists_files_of_text {f : Formatter} {xs : List Draft}
    (h : ∀ x ∈ xs, ∃ text, x.text = .ok text) : ∃ files, xs.mapM (Draft.written f) = .ok files := by
  refine Results.exists_mapM fun x hx => ?_
  obtain ⟨text, htext⟩ := h x hx
  exact ⟨_, Results.map_eq_ok.mpr ⟨text, htext, rfl⟩⟩

/-- **How a run ends**, if its texts can be rendered and its files lie below its root: without
    directories, with all files, or at a file that cannot be written. -/
theorem run_cases (j : Job) (f : Formatter) (d : Disk) {files : List (Path × String)}
    (hfiles : j.sequence.mapM (Draft.written f) = .ok files)
    (hroot : ∀ x ∈ files, j.layout.root <+: x.1) :
    (∃ failure, (j.ready d).2 = .error failure ∧ (j.run f d).disk = (j.ready d).1 ∧
      (j.run f d).result = .error (.stopped (.directories failure))) ∨
    ∃ made, (j.ready d).2 = .ok made ∧
      ((∃ report, (j.run f d).result = .ok report ∧
          (j.ready d).1.writeAll files = .ok (j.run f d).disk ∧
          files.map (recorded j.layout.root) = report.files.map .ok ∧
          report.phases = [.start, .directories] ++ j.passed ++ [.done]) ∨
        ∃ before p text after failure, files = before ++ (p, text) :: after ∧
          (j.ready d).1.writeAll before = .ok (j.run f d).disk ∧
          (j.run f d).disk.write p text = .error failure ∧
          (j.run f d).result = .error (.stopped (.write (.disk failure)))) := by
  have hwrites := j.writes_course f d
  have hends := hwrites.interrupted hfiles hroot
  obtain ⟨failure, hfail, hrun⟩ | ⟨made, hmade, ⟨stop, hstop, hrun⟩ | ⟨hstop, hrun⟩⟩ := j.run_eq f d
  · rw [hrun]
    exact .inl ⟨failure, hfail, rfl, rfl⟩
  · -- a file could not be written
    obtain ⟨hnone, -⟩ | ⟨before, p, text, after, failure, hsplit, hbefore, hfail, hwrite⟩ := hends
    · exact nomatch hstop.symm.trans hnone
    · cases hstop.symm.trans hwrite
      rw [hrun]
      exact .inr ⟨made, hmade, .inr ⟨before, p, text, after, failure, hsplit, hbefore, hfail, rfl⟩⟩
  · -- everything was written
    obtain ⟨-, hall⟩ | ⟨_, _, _, _, _, -, -, -, hwrite⟩ := hends
    · rw [hstop] at hwrites
      obtain ⟨files', hfiles', -, hrecords⟩ := hwrites.complete
      cases hfiles.symm.trans hfiles'
      rw [hrun]
      refine .inr ⟨made, hmade, .inl ⟨_, rfl, hall, hrecords, ?_⟩⟩
      show [Phase.start, Phase.directories] ++ (j.course f d).phases ++ [Phase.done] = _
      rw [Job.phases_course hstop]
    · exact nomatch hstop.symm.trans hwrite

/-- A job whose texts can be rendered and whose files lie below its root runs in order. -/
theorem run_inOrder (j : Job) (f : Formatter) (d : Disk) {files : List (Path × String)}
    (hfiles : j.sequence.mapM (Draft.written f) = .ok files)
    (hroot : ∀ x ∈ files, j.layout.root <+: x.1) : InOrder j d files (j.run f d) := by
  have hadded := (j.prepared_ready d).added
  rcases run_cases j f d hfiles hroot with ⟨failure, hready, hdisk, hresult⟩ |
    ⟨made, hready, ⟨report, hresult, hall, hrecords, hphases⟩ |
      ⟨before, p, text, after, failure, rfl, hbefore, hfail, hresult⟩⟩
  · -- without directories there is neither a report nor a file
    refine ⟨hadded, fun _ => Job.status_of_ready, ?_, ?_, ?_, ?_⟩
    · constructor
      · rintro ⟨report, h⟩
        exact nomatch hresult.symm.trans h
      · rintro ⟨⟨made, h⟩, -⟩
        exact nomatch hready.symm.trans h
    · intro report h
      exact nomatch hresult.symm.trans h
    · intro failure' h
      cases hready.symm.trans h
      exact ⟨hdisk, hresult⟩
    · intro made failure' h
      exact nomatch hready.symm.trans h
  · refine ⟨hadded, fun _ => Job.status_of_ready, ?_, ?_, ?_, ?_⟩
    · exact ⟨fun _ => ⟨⟨made, hready⟩, _, hall⟩, fun _ => ⟨report, hresult⟩⟩
    · intro report' h
      cases hresult.symm.trans h
      exact ⟨hall, hrecords, hphases⟩
    · intro failure h
      exact nomatch hready.symm.trans h
    · intro made' failure _ h
      exact nomatch hall.symm.trans h
  · -- writing all files would fail where the run did
    have herror := Disk.writeAll_eq_error (b := after) hbefore hfail
    refine ⟨hadded, fun _ => Job.status_of_ready, ?_, ?_, ?_, ?_⟩
    · constructor
      · rintro ⟨report, h⟩
        exact nomatch hresult.symm.trans h
      · rintro ⟨-, d', h⟩
        exact nomatch herror.symm.trans h
    · intro report h
      exact nomatch hresult.symm.trans h
    · intro failure' h
      exact nomatch hready.symm.trans h
    · intro made' failure' _ h
      cases herror.symm.trans h
      exact ⟨before, p, text, after, rfl, hbefore, hfail, hresult⟩

/-! ## The theorem -/

/-- A converted name holds no slash, unless it was left as it is and held one before. -/
theorem slash_not_mem_convert {s : Naming.CaseStyle} {name : String}
    (h : s = .verbatim → '/' ∉ name.toList) : '/' ∉ (s.convert name).toList := by
  have hother : ∀ c ∈ (s.convert name).toList, c ≠ '/' := by
    refine Naming.forall_mem_convert (fun c hchar => ?_) fun hs c hc => ?_
    · rintro rfl
      exact absurd hchar (by decide)
    · rintro rfl
      exact h hs hc
  exact fun hmem => hother _ hmem rfl

/-- Names of files hold no slash, unless they are left as they are and held one before. -/
theorem slashless_jobOf {w : Workspace} {es : List Entity} {o : Options} (h : o.Legal)
    (hfile : o.fileCase = .verbatim → ∀ e ∈ es, '/' ∉ e.fileName.toList) {root : Path} :
    (jobOf w es o h root).Slashless :=
  fun e he => slash_not_mem_convert fun hs => hfile hs e he

/-- **A run writes its files in order.** The options are any that can be read, the entities any that
    consist of JSON values, the formatter and the disk any at all; the results go to a directory that
    has a name, and names that are left as they are hold no slash. -/
theorem generate_inOrder {w : Workspace} {es : List Entity} {platform : String} {v : Value}
    {o : Options} (ho : Options.read platform v = .valid o) (hes : ∀ e ∈ es, JsonValued e)
    (hfile : o.fileCase = .verbatim → ∀ e ∈ es, '/' ∉ e.fileName.toList)
    (hhere : Disk.Slashless w.here) {root : Path}
    (hroot : w.disk.resolve w.here o.resultsPath = .ok root) (hne : root ≠ [])
    (formatter : Option Formatter) :
    ∃ job files, prepare w es o.settings = .ok job ∧ job.layout.root = root ∧
      job.sequence.mapM (Draft.written (formatter.getD (ownFormatter w o.settings))) = .ok files ∧
      InOrder job w.disk files (generate w formatter es o.settings) := by
  have hlegal := Schema.legal_of_read ho
  have hjob : prepare w es o.settings = .ok (jobOf w es o hlegal root) :=
    prepare_of_legal hlegal hroot hne
  obtain ⟨files, hfiles⟩ := exists_files_of_text
    (f := formatter.getD (ownFormatter w o.settings))
    (exists_text (j := jobOf w es o hlegal root) rfl hes)
  refine ⟨jobOf w es o hlegal root, files, hjob, rfl, hfiles, ?_⟩
  have hways := exists_way (extended_jobOf hlegal) (slashless_jobOf hlegal hfile)
    (slash_not_mem_module hlegal hhere hroot hne)
  rw [generate_of_prepare hjob]
  refine run_inOrder _ _ _ hfiles fun x hx => ?_
  obtain ⟨y, hy, hwritten⟩ := Results.exists_of_mem_mapM hfiles x hx
  obtain ⟨way, hway, -⟩ := hways y hy
  exact ⟨way, (place_of_written hwritten ▸ hway).symm⟩

theorem jsonValued_bareEntity (name : String) : JsonValued (bareEntity name) where
  columns _ h := absurd h List.not_mem_nil
  relations _ h := absurd h List.not_mem_nil
  indices _ h := absurd h List.not_mem_nil

/-- The run over two entities on an empty disk. -/
theorem inOrder_bareEntities : ∃ job files,
    prepare (.ofDisk ⟨[]⟩) [bareEntity "user", bareEntity "post"] (Options.standard "\n").settings
      = .ok job ∧ job.layout.root = ["output"] ∧
    job.sequence.mapM (Draft.written Formatter.keep) = .ok files ∧
    InOrder job ⟨[]⟩ files (generate (.ofDisk ⟨[]⟩) (some Formatter.keep)
      [bareEntity "user", bareEntity "post"] (Options.standard "\n").settings) := by
  have hes : ∀ e ∈ [bareEntity "user", bareEntity "post"], JsonValued e := by
    intro e he
    rcases List.mem_cons.mp he with rfl | he
    · exact jsonValued_bareEntity "user"
    · rw [List.mem_singleton.mp he]
      exact jsonValued_bareEntity "post"
  have hfile : (Options.standard "\n").fileCase = .verbatim →
      ∀ e ∈ [bareEntity "user", bareEntity "post"], '/' ∉ e.fileName.toList := by decide
  have hroot : (⟨[]⟩ : Disk).resolve [] (Options.standard "\n").resultsPath = .ok ["output"] := rfl
  exact generate_inOrder (Schema.read_nil "\n") hes hfile Disk.slashless_nil hroot (by decide)
    (some Formatter.keep)

end Scaffold.Generation
