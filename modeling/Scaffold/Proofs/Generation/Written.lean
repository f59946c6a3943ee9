import Scaffold.Proofs.Disk.Outline
import Scaffold.Proofs.Generation.Sequence

/-!
# `Scaffold.Proofs.Generation.Written` — the files that a run writes

A run writes files until it is through or something ends it, a text that cannot be rendered as well as
a file that cannot be written. `Job.filesWritten` tells these files with their texts. Once the
directories are there, a run does to the disk what writing them one after another does
(`Job.writeAll_filesWritten`), and a run that succeeds writes all files of its sequence
(`Job.filesWritten_of_run`).

## Contents
- **Drafts.** `filesWritten`, `exists_of_mem_filesWritten`, `Writes.writeAll`, `Writes.filesWritten_eq`.
- **Runs.** `Job.filesWritten`, `Job.writeAll_filesWritten`, `Job.filesWritten_of_run`.
- **Generating.** `writtenFiles`, `writtenFiles_of_prepare`.
-/

namespace Scaffold.Generation

open Disk (Path)
open Schema (Entity Settings)

/-! ## Drafts -/

/-- The files that are written for drafts one after another, until something ends it. -/
def filesWritten (f : Formatter) (root : Path) (d : Disk) : List Draft → List (Path × String)
  | [] => []
  | x :: xs =>
    match x.written f with
    | .error _ => []
    | .ok (p, text) =>
      match d.write p text with
      | .error _ => []
      | .ok d =>
        (p, text) ::
          match recordOf root p text with
          | .error _ => []
          | .ok _ => filesWritten f root d xs

variable {f : Formatter} {root : Path}

/-- A file that is written comes from a draft. -/
theorem exists_of_mem_filesWritten {d : Disk} {xs : List Draft} {file : Path × String}
    (h : file ∈ filesWritten f root d xs) : ∃ x ∈ xs, x.written f = .ok file := by
  induction xs generalizing d with
  | nil => exact absurd h List.not_mem_nil
  | cons x xs ih =>
      unfold filesWritten at h
      split at h
      · exact absurd h List.not_mem_nil
      · rename_i p text hx
        split at h
        · exact absurd h List.not_mem_nil
        · rcases List.mem_cons.mp h with rfl | h
          · exact ⟨x, List.mem_cons_self, hx⟩
          · split at h
            · exact absurd h List.not_mem_nil
            · obtain ⟨y, hy, hfile⟩ := ih h
              exact ⟨y, List.mem_cons_of_mem _ hy, hfile⟩

variable {d d' : Disk} {xs : List Draft} {rs : List FileRecord} {stop : Option Stop}

/-- **Whatever ends it, what was done to the disk is the writing of these files.** -/
theorem Writes.writeAll (h : Writes f root d xs rs d' stop) :
    d.writeAll (filesWritten f root d xs) = .ok d' := by
  induction h with
  | nothing d => rfl
  | next hx hwrite hrecord _ ih =>
      simp only [filesWritten, hx, hwrite, hrecord]
      exact Disk.writeAll_cons_eq_ok.mpr ⟨_, hwrite, ih⟩
  | @unrendered d x xs fault hx =>
      have hwritten : x.written f = .error fault := by
        unfold Draft.written
        rw [hx]
        rfl
      simp only [filesWritten, hwritten]
      rfl
  | unwritten hx hwrite =>
      simp only [filesWritten, hx, hwrite]
      rfl
  | unrecorded hx hwrite hrecord =>
      simp only [filesWritten, hx, hwrite, hrecord]
      exact Disk.writeAll_cons_eq_ok.mpr ⟨_, hwrite, rfl⟩

/-- Where nothing ends it early, these are the files of all drafts, and all are recorded. -/
theorem Writes.filesWritten_eq (h : Writes f root d xs rs d' none) :
    xs.mapM (Draft.written f) = .ok (filesWritten f root d xs) ∧
      (filesWritten f root d xs).map (recorded root) = rs.map .ok := by
  induction xs generalizing d rs with
  | nil =>
      cases h
      exact ⟨rfl, rfl⟩
  | cons x xs ih =>
      cases h with
      | @next _ d₁ _ _ _ p text record records _ hx hwrite hrecord rest =>
          obtain ⟨hfiles, hrecords⟩ := ih rest
          have hcons : filesWritten f root d (x :: xs) =
              (p, text) :: filesWritten f root d₁ xs := by
            simp only [filesWritten, hx, hwrite, hrecord]
          rw [hcons]
          refine ⟨Results.mapM_cons_eq_ok.mpr ⟨_, _, hx, hfiles, rfl⟩, ?_⟩
          rw [List.map_cons, List.map_cons, hrecords, recorded, hrecord]

/-! ## Runs -/

namespace Job

/-- The files that a run writes; without its directories there is none. -/
def filesWritten (j : Job) (f : Formatter) (d : Disk) : List (Path × String) :=
  match (j.ready d).2 with
  | .error _ => []
  | .ok _ => Generation.filesWritten f j.layout.root (j.ready d).1 j.sequence

variable {j : Job}

theorem exists_of_mem_filesWritten {file : Path × String} (h : file ∈ j.filesWritten f d) :
    ∃ x ∈ j.sequence, x.written f = .ok file := by
  unfold filesWritten at h
  split at h
  · exact absurd h List.not_mem_nil
  · exact Generation.exists_of_mem_filesWritten h

/-- **A run makes its directories and writes its files**, and does nothing else to the disk. -/
theorem writeAll_filesWritten (j : Job) (f : Formatter) (d : Disk) :
    (j.ready d).1.writeAll (j.filesWritten f d) = .ok (j.run f d).disk := by
  have hwrites := (j.writes_course f d).writeAll
  have hfiles : ∀ {made}, (j.ready d).2 = .ok made → j.filesWritten f d =
      Generation.filesWritten f j.layout.root (j.ready d).1 j.sequence := by
    intro made hmade
    unfold filesWritten
    rw [hmade]
  obtain ⟨failure, hfail, hrun⟩ | ⟨made, hmade, ⟨stop, -, hrun⟩ | ⟨-, hrun⟩⟩ := j.run_eq f d
  · unfold filesWritten
    rw [hfail, hrun]
    rfl
  · rw [hfiles hmade, hrun]
    exact hwrites
  · rw [hfiles hmade, hrun]
    exact hwrites

/-- A run that succeeds has its directories, and writes all files of its sequence. -/
theorem filesWritten_of_run {report : Report} (h : (j.run f d).result = .ok report) :
    (∃ made, (j.ready d).2 = .ok made) ∧
      j.sequence.mapM (Draft.written f) = .ok (j.filesWritten f d) ∧
      (j.filesWritten f d).map (recorded j.layout.root) = report.files.map .ok := by
  obtain ⟨made, hmade, hwrites⟩ := writes_of_run_eq_ok h
  refine ⟨⟨made, hmade⟩, ?_⟩
  unfold filesWritten
  rw [hmade]
  exact hwrites.filesWritten_eq

end Job

/-! ## Generating -/

/-- The files that generating writes; where no job can be prepared there is none. -/
def writtenFiles (w : Workspace) (formatter : Option Formatter) (es : List Entity) (s : Settings) :
    List (Path × String) :=
  match prepare w es s with
  | .error _ => []
  | .ok j => j.filesWritten (formatter.getD (ownFormatter w s)) w.disk

variable {w : Workspace} {formatter : Option Formatter} {es : List Entity} {s : Settings}

theorem writtenFiles_of_prepare {j : Job} (hj : prepare w es s = .ok j) :
    writtenFiles w formatter es s = j.filesWritten (formatter.getD (ownFormatter w s)) w.disk := by
  unfold writtenFiles
  rw [hj]

theorem writtenFiles_of_fault {fault : Fault} (hj : prepare w es s = .error fault) :
    writtenFiles w formatter es s = [] := by
  unfold writtenFiles
  rw [hj]

end Scaffold.Generation
