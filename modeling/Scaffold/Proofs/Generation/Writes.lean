import Scaffold.Proofs.Disk.Writing
import Scaffold.Proofs.Generation.Files
import Scaffold.Proofs.Results

/-!
# `Scaffold.Proofs.Generation.Writes` — what a run does to the disk

`Writes` says what writing drafts one after another comes to, without the recursion over steps. A run
does nothing else (`Job.run_eq`, `Job.writes_course`), so what is proved of `Writes` by induction holds
of every run: one that goes through has written every file (`Writes.complete`), and one that stops at
a file has written those before it (`Writes.interrupted`).

## Contents
- **Relation.** `Draft.written`, `Writes`, `map_place_of_written`, `Writes.append`.
- **Courses.** `writes_emit`, `writes_follow`, `phases_follow`, `Job.course`, `Job.writes_course`.
- **Runs.** `Job.ready`, `Job.run_eq`, `writes_of_run_eq_ok`.
- **Records.** `recorded`, `exists_way_of_recorded`, `place_of_recorded`, `prefix_of_recorded`.
- **Results.** `Writes.complete`, `Writes.interrupted`.
-/

namespace Scaffold.Generation

open Disk (Path)
open Source (RenderFault)

/-! ## The relation -/

/-- The place of a file and the text that is written there. -/
def Draft.written (f : Formatter) (x : Draft) : Except RenderFault (Path × String) :=
  x.text.map fun text => (x.place, (f.apply text x.source x.parser).1)

/-- **Writing drafts one after another** leads from a disk to another one, with the records of what
    was written and the reason for an early end. -/
inductive Writes (f : Formatter) (root : Path) :
    Disk → List Draft → List FileRecord → Disk → Option Stop → Prop
  | nothing (d : Disk) : Writes f root d [] [] d none
  | next {d d₁ d' : Disk} {x : Draft} {xs : List Draft} {p : Path} {text : String}
      {record : FileRecord} {records : List FileRecord} {stop : Option Stop}
      (hx : x.written f = .ok (p, text)) (hwrite : d.write p text = .ok d₁)
      (hrecord : recordOf root p text = .ok record) (rest : Writes f root d₁ xs records d' stop) :
      Writes f root d (x :: xs) (record :: records) d' stop
  | unrendered {d : Disk} {x : Draft} {xs : List Draft} {fault : RenderFault}
      (hx : x.text = .error fault) : Writes f root d (x :: xs) [] d (some (.render fault))
  | unwritten {d : Disk} {x : Draft} {xs : List Draft} {p : Path} {text : String}
      {failure : Disk.Failure} (hx : x.written f = .ok (p, text))
      (hwrite : d.write p text = .error failure) :
      Writes f root d (x :: xs) [] d (some (.write (.disk failure)))
  | unrecorded {d d' : Disk} {x : Draft} {xs : List Draft} {p : Path} {text : String}
      {fault : WriteFault} (hx : x.written f = .ok (p, text)) (hwrite : d.write p text = .ok d')
      (hrecord : recordOf root p text = .error fault) :
      Writes f root d (x :: xs) [] d' (some (.write fault))

variable {f : Formatter} {root : Path}

theorem place_of_written {x : Draft} {file : Path × String} (h : x.written f = .ok file) :
    file.1 = x.place := by
  obtain ⟨text, -, rfl⟩ := Results.map_eq_ok.mp h
  rfl

/-- A formatter does not decide where files go. -/
theorem map_place_of_written {xs : List Draft} {files : List (Path × String)}
    (h : xs.mapM (Draft.written f) = .ok files) : files.map Prod.fst = xs.map Draft.place := by
  have hall := Results.mapM_eq_ok.mp h
  clear h
  induction hall with
  | nil => rfl
  | cons hx _ ih => rw [List.map_cons, List.map_cons, ih, place_of_written hx]

theorem Writes.append {d d₁ d' : Disk} {xs ys : List Draft} {rs ss : List FileRecord}
    {stop : Option Stop} (h : Writes f root d xs rs d₁ none) (g : Writes f root d₁ ys ss d' stop) :
    Writes f root d (xs ++ ys) (rs ++ ss) d' stop := by
  induction xs generalizing d rs with
  | nil =>
      cases h
      exact g
  | cons x xs ih =>
      cases h with
      | next hx hwrite hrecord rest => exact .next hx hwrite hrecord (ih rest)

/-- After an early end nothing follows. -/
theorem Writes.append_stopped {d d' : Disk} {xs : List Draft} {rs : List FileRecord} {stop : Stop}
    (h : Writes f root d xs rs d' (some stop)) (ys : List Draft) :
    Writes f root d (xs ++ ys) rs d' (some stop) := by
  induction xs generalizing d rs with
  | nil => cases h
  | cons x xs ih =>
      cases h with
      | next hx hwrite hrecord rest => exact .next hx hwrite hrecord (ih rest)
      | unrendered hx => exact .unrendered hx
      | unwritten hx hwrite => exact .unwritten hx hwrite
      | unrecorded hx hwrite hrecord => exact .unrecorded hx hwrite hrecord

/-! ## Courses -/

/-- The files of a step are written one after another. -/
theorem writes_emit (f : Formatter) (root : Path) (d : Disk) (xs : List Draft) :
    Writes f root d xs (emit f root d xs).files (emit f root d xs).disk
      (emit f root d xs).stop := by
  induction xs generalizing d with
  | nil => exact .nothing d
  | cons x xs ih =>
      unfold emit
      cases htext : x.text with
      | error fault => exact .unrendered htext
      | ok text =>
          have hwritten : x.written f = .ok (x.place, (f.apply text x.source x.parser).1) := by
            unfold Draft.written
            rw [htext]
            rfl
          simp only [writeBelow]
          cases hwrite : d.write (x.directory.join x.name) (f.apply text x.source x.parser).1 with
          | error failure => exact .unwritten hwritten hwrite
          | ok d₁ =>
              simp only
              cases hrecord : recordOf root (x.directory.join x.name)
                  (f.apply text x.source x.parser).1 with
              | error fault => exact .unrecorded hwritten hwrite hrecord
              | ok record => exact .next hwritten hwrite hrecord (ih d₁)

/-- **A run writes the files of its steps one after another**, wherever one step ends and the next one
    begins. -/
theorem writes_follow (f : Formatter) (root : Path) (d : Disk) (reached : Phase) (steps : List Step) :
    Writes f root d (steps.flatMap Step.drafts) (follow f root d reached steps).files
      (follow f root d reached steps).disk (follow f root d reached steps).stop := by
  induction steps generalizing d reached with
  | nil => exact .nothing d
  | cons s steps ih =>
      have hstep := writes_emit f root d s.drafts
      rw [List.flatMap_cons]
      unfold follow
      simp only
      split
      · rename_i stop hstop
        rw [hstop] at hstep
        exact hstep.append_stopped _
      · rename_i hstop
        rw [hstop] at hstep
        exact hstep.append (ih _ _)

/-- A run that goes through passes the phases of its steps. -/
theorem phases_follow (f : Formatter) (root : Path) (d : Disk) (reached : Phase) (steps : List Step)
    (h : (follow f root d reached steps).stop = none) :
    (follow f root d reached steps).phases = steps.map Step.phase := by
  induction steps generalizing d reached with
  | nil => rfl
  | cons s steps ih =>
      unfold follow at h ⊢
      simp only at h ⊢
      split at h
      · exact absurd h (by simp)
      · simp only at h ⊢
        rw [ih _ _ h, List.map_cons]

/-- The disk with the directories of a job, and which of them were made. -/
def Job.ready (j : Job) (d : Disk) : Disk × Except Disk.Failure (List Path) :=
  j.layout.ensure d (!j.layout.flat)

namespace Job

/-- Making the directories adds directories, and changes nothing else. -/
theorem prepared_ready (j : Job) (d : Disk) : Disk.Prepared d (j.ready d).1 :=
  Disk.prepared_ensureAll d (j.layout.targets (!j.layout.flat))

/-- When they are made, every one is there. -/
theorem status_of_ready {j : Job} {d : Disk} {made : List Path} (h : (j.ready d).2 = .ok made) :
    ∀ p ∈ j.layout.targets (!j.layout.flat), (j.ready d).1.status p = .ok .directory := by
  have hensure : d.ensureAll (j.layout.targets (!j.layout.flat)) = ((j.ready d).1, .ok made) :=
    Prod.ext rfl h
  exact Disk.status_of_ensureAll hensure

/-- The course of a job's steps, once its directories were made as far as they can be. -/
def course (j : Job) (f : Formatter) (d : Disk) : Course :=
  follow f j.layout.root (j.ready d).1 .directories j.plan

theorem writes_course (j : Job) (f : Formatter) (d : Disk) :
    Writes f j.layout.root (j.ready d).1 j.sequence (j.course f d).files
      (j.course f d).disk (j.course f d).stop := by
  rw [← j.flatMap_drafts_plan]
  exact writes_follow ..

theorem phases_course {j : Job} {f : Formatter} {d : Disk} (h : (j.course f d).stop = none) :
    (j.course f d).phases = j.passed := by
  rw [← j.map_phase_plan]
  exact phases_follow _ _ _ _ _ h

/-! ## Runs -/

/-- **How a run goes**: it ends without its directories, or follows its steps, and ends as they do. -/
theorem run_eq (j : Job) (f : Formatter) (d : Disk) :
    (∃ failure, (j.ready d).2 = .error failure ∧
      j.run f d = ⟨(j.ready d).1, (Stop.directories failure).log .start,
        .error (.stopped (.directories failure))⟩) ∨
    ∃ made, (j.ready d).2 = .ok made ∧
      ((∃ stop, (j.course f d).stop = some stop ∧
          j.run f d = ⟨(j.course f d).disk, j.layout.readyNote made :: (j.course f d).log,
            .error (.stopped stop)⟩) ∨
        (j.course f d).stop = none ∧
          j.run f d = ⟨(j.course f d).disk, j.layout.readyNote made :: (j.course f d).log ++
            closingNotes (reportOf j made (j.course f d)), .ok (reportOf j made (j.course f d))⟩) := by
  unfold course run ready
  cases j.layout.ensure d (!j.layout.flat) with
  | mk ready made =>
      cases made with
      | error failure => exact .inl ⟨failure, rfl, rfl⟩
      | ok made =>
          refine .inr ⟨made, rfl, ?_⟩
          simp only
          cases (follow f j.layout.root ready .directories j.plan).stop with
          | some stop => exact .inl ⟨stop, rfl, rfl⟩
          | none => exact .inr ⟨rfl, rfl⟩

/-- A run that nothing ends. -/
theorem run_of_course {j : Job} {f : Formatter} {d : Disk} {made : List Path}
    (hmade : (j.ready d).2 = .ok made) (hstop : (j.course f d).stop = none) :
    j.run f d = ⟨(j.course f d).disk, j.layout.readyNote made :: (j.course f d).log ++
      closingNotes (reportOf j made (j.course f d)), .ok (reportOf j made (j.course f d))⟩ := by
  obtain ⟨failure, hfail, -⟩ | ⟨made', hmade', ⟨stop, hstop', -⟩ | ⟨-, hrun⟩⟩ := j.run_eq f d
  · exact nomatch hfail.symm.trans hmade
  · exact nomatch hstop'.symm.trans hstop
  · cases hmade'.symm.trans hmade
    exact hrun

end Job

/-- A run that succeeds has made its directories and gone through all steps. -/
theorem writes_of_run_eq_ok {j : Job} {d : Disk} {report : Report}
    (h : (j.run f d).result = .ok report) :
    ∃ made, (j.ready d).2 = .ok made ∧
      Writes f j.layout.root (j.ready d).1 j.sequence report.files
        (j.run f d).disk none := by
  obtain ⟨failure, -, hrun⟩ | ⟨made, hmade, ⟨stop, -, hrun⟩ | ⟨hstop, hrun⟩⟩ := j.run_eq f d
  · rw [hrun] at h
    exact nomatch h
  · rw [hrun] at h
    exact nomatch h
  · rw [hrun] at h ⊢
    cases h
    exact ⟨made, hmade, hstop ▸ j.writes_course f d⟩

/-! ## Records -/

/-- The record of a file that is written. -/
def recorded (root : Path) (file : Path × String) : Except WriteFault FileRecord :=
  recordOf root file.1 file.2

/-- A record tells where its file is, and shows the way there from the root. -/
theorem exists_way_of_recorded {file : Path × String} {r : FileRecord}
    (h : recorded root file = .ok r) :
    ∃ way, file.1 = root ++ way ∧ r.place = file.1 ∧ r.relative = Disk.shownPath way.joined := by
  unfold recorded recordOf at h
  split at h
  · exact nomatch h
  · rename_i way hway
    cases h
    exact ⟨way, Disk.below?_eq_some_iff.mp hway, rfl, rfl⟩

section Recorded

variable {files : List (Path × String)} {rs : List FileRecord}
  (h : files.map (recorded root) = rs.map .ok)
include h

theorem place_of_recorded : rs.map FileRecord.place = files.map Prod.fst := by
  have hall := Results.mapM_eq_ok.mp (Results.map_eq_map_ok_iff.mp h)
  clear h
  induction hall with
  | nil => rfl
  | cons hx _ ih =>
      obtain ⟨way, -, hplace, -⟩ := exists_way_of_recorded hx
      rw [List.map_cons, List.map_cons, ih, hplace]

/-- Files that were recorded lie below the root. -/
theorem prefix_of_recorded : ∀ x ∈ files, root <+: x.1 := by
  intro x hx
  obtain ⟨r, -, hr⟩ := Results.exists_mem_of_mapM (Results.map_eq_map_ok_iff.mp h) x hx
  obtain ⟨way, hway, -⟩ := exists_way_of_recorded hr
  exact ⟨way, hway.symm⟩

theorem exists_record_of_mem {x : Path × String} (hx : x ∈ files) : ∃ r ∈ rs, r.place = x.1 :=
  List.mem_map.mp (place_of_recorded h ▸ List.mem_map_of_mem hx)

theorem exists_file_of_mem {r : FileRecord} (hr : r ∈ rs) : ∃ x ∈ files, x.1 = r.place :=
  List.mem_map.mp (place_of_recorded h ▸ List.mem_map_of_mem hr)

end Recorded

/-! ## Results -/

/-- **Whoever goes through has written every file**, in order, and recorded it. -/
theorem Writes.complete {d d' : Disk} {xs : List Draft} {rs : List FileRecord}
    (h : Writes f root d xs rs d' none) :
    ∃ files, xs.mapM (Draft.written f) = .ok files ∧ d.writeAll files = .ok d' ∧
      files.map (recorded root) = rs.map .ok := by
  induction xs generalizing d rs with
  | nil =>
      cases h
      exact ⟨[], rfl, rfl, rfl⟩
  | cons x xs ih =>
      cases h with
      | @next _ _ _ _ _ p text record records _ hx hwrite hrecord rest =>
          obtain ⟨files, hfiles, hall, hrecords⟩ := ih rest
          refine ⟨(p, text) :: files, ?_, ?_, ?_⟩
          · exact Results.mapM_cons_eq_ok.mpr ⟨_, _, hx, hfiles, rfl⟩
          · exact Disk.writeAll_cons_eq_ok.mpr ⟨_, hwrite, hall⟩
          · rw [List.map_cons, List.map_cons, hrecords, recorded, hrecord]

/-- **Where every text is rendered and every file lies below the root**, all files are written, or
    those before the first one that cannot be. -/
theorem Writes.interrupted {d d' : Disk} {xs : List Draft} {rs : List FileRecord}
    {stop : Option Stop} (h : Writes f root d xs rs d' stop) {files : List (Path × String)}
    (hfiles : xs.mapM (Draft.written f) = .ok files) (hroot : ∀ x ∈ files, root <+: x.1) :
    (stop = none ∧ d.writeAll files = .ok d') ∨
      ∃ before p text after failure, files = before ++ (p, text) :: after ∧
        d.writeAll before = .ok d' ∧ d'.write p text = .error failure ∧
        stop = some (.write (.disk failure)) := by
  induction xs generalizing d rs files with
  | nil =>
      cases h
      cases hfiles
      exact .inl ⟨rfl, rfl⟩
  | cons x xs ih =>
      obtain ⟨file, rest, hx, hxs, rfl⟩ := Results.mapM_cons_eq_ok.mp hfiles
      cases h with
      | @next _ d₁ _ _ _ p text _ _ _ hx' hwrite _ hrest =>
          rw [hx] at hx'
          cases hx'
          have hbelow : ∀ y ∈ rest, root <+: y.1 :=
            fun y hy => hroot y (List.mem_cons_of_mem _ hy)
          rcases ih hrest hxs hbelow with ⟨hnone, hall⟩ |
            ⟨before, q, t, after, failure, rfl, hbefore, hfail, hstop⟩
          · exact .inl ⟨hnone, Disk.writeAll_cons_eq_ok.mpr ⟨_, hwrite, hall⟩⟩
          · exact .inr ⟨(p, text) :: before, q, t, after, failure, rfl,
              Disk.writeAll_cons_eq_ok.mpr ⟨_, hwrite, hbefore⟩, hfail, hstop⟩
      | unrendered hfault =>
          obtain ⟨text, htext, -⟩ := Results.map_eq_ok.mp hx
          exact nomatch hfault.symm.trans htext
      | @unwritten _ _ _ p text failure hx' hwrite =>
          rw [hx] at hx'
          cases hx'
          exact .inr ⟨[], p, text, rest, failure, rfl, rfl, hwrite, rfl⟩
      | @unrecorded _ _ _ _ p text fault hx' hwrite hrecord =>
          rw [hx] at hx'
          cases hx'
          -- a file below the root is recorded
          obtain ⟨way, hway⟩ := hroot _ List.mem_cons_self
          have hbelow : Path.below? root p = some way :=
            Disk.below?_eq_some_iff.mpr hway.symm
          unfold recordOf at hrecord
          rw [hbelow] at hrecord
          exact absurd hrecord (by simp)

end Scaffold.Generation
