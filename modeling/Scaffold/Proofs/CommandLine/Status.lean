import Scaffold.CommandLine.Run
import Scaffold.Proofs.Disk.Walking
import Scaffold.Proofs.Generation.Unforeseen

/-!
# `Scaffold.Proofs.CommandLine.Status` — how the program ends

The program ends with a status, or with a fault that nothing expects and that takes the place of one.
Both are told here from what the program is given: `EndsWith` lists how each status comes about, and
`Uncaught` what leads to the faults. Nothing else happens (`runProgram_ends`), whatever programs the
machine has and whatever comes of them. The status of templates is never reached; and there are schema
files, of a single byte even, for which there is no status (`undecodable_uncaught`).

## Contents
- **Schema files.** `Serves`, `WholeSchema`, `result_of_serves`, `cases_of_serves`.
- **Endings.** `EndsWith`, `Uncaught`.
- **The theorem.** `runProgram_cases`, `runProgram_ends`, `ends_served`, `undecodable_uncaught`.
-/

namespace Scaffold.CommandLine

open Disk (Path)
open Generation (Fault Placeless Unforeseen Workspace areaOfLabel systemLabels)

/-! ## Schema files -/

/-- A schema file is found, and the directory for the results has a place if one is asked for. -/
structure Serves (w : Workspace) (args : List String) (q : Request) (path : Path) : Prop where
  request : ∃ v, read args = .ok (q, v) ∧ placeOf w v = .ok path
  file : ∃ bytes, w.disk.status path = .ok (.file bytes)
  results : ∀ v, q.results? = some v → ∃ p, placeOf w v = .ok p

/-- The schema file that is asked for spells no half of a surrogate pair that stands alone. -/
def WholeSchema (w : Workspace) (args : List String) : Prop :=
  ∀ q path, Serves w args q path → Generation.Whole (Schema.load w.disk (.ofPath path)).2

/-- What comes of a run over the schema file at a path. -/
def generated (w : Workspace) (q : Request) (path : Path) : Except Fault Report :=
  (Generation.generateFile w none (.ofPath path) q.overrides).result

variable {w : Workspace} {args : List String}

theorem placeOf_eq_error {v : Value} {f : Fault} : placeOf w v = .error f ↔ Placeless w v f :=
  Generation.placeless_iff

theorem status?_of_file {d : Disk} {path : Path} {text : String} {bytes : List UInt8}
    (h : d.status path = .ok (.file bytes)) : d.status? path text = .ok (some (.file bytes)) := by
  unfold Disk.status?
  rw [h]

/-- A request about a file is served by a run over it. -/
theorem result_of_serves {q : Request} {path : Path} (h : Serves w args q path) :
    (runProgram w args).result = (generateAt w q path).result := by
  obtain ⟨v, hread, hplace⟩ := h.request
  obtain ⟨bytes, hfile⟩ := h.file
  have hstatus : w.disk.status? path path.text = _ := status?_of_file hfile
  have hnotes : ∃ notes, openingNotes w path q.results? = .ok notes := by
    unfold openingNotes
    cases hresults : q.results? with
    | none => exact ⟨_, rfl⟩
    | some u =>
        obtain ⟨p, hp⟩ := h.results u hresults
        exact ⟨_, Results.map_eq_ok.mpr ⟨p, hp, rfl⟩⟩
  obtain ⟨notes, hnotes⟩ := hnotes
  simp only [runProgram, hread, serve, hplace, hstatus, hnotes]

/-- A directory for the results that has no place is a fault of its own. -/
theorem result_of_results {q : Request} {v u : Value} {path : Path} {bytes : List UInt8} {f : Fault}
    (hread : read args = .ok (q, v)) (hplace : placeOf w v = .ok path)
    (hfile : w.disk.status path = .ok (.file bytes)) (hresults : q.results? = some u)
    (h : placeOf w u = .error f) : (runProgram w args).result = .error f := by
  have hstatus : w.disk.status? path path.text = _ := status?_of_file hfile
  have hnotes : openingNotes w path q.results? = .error f := by
    rw [hresults]
    exact Results.map_eq_error.mpr h
  simp only [runProgram, hread, serve, hplace, hstatus, hnotes]

/-- Where no file is the request is refused, if the path can be looked up at all. -/
theorem result_of_noFile {q : Request} {v : Value} {path : Path} (hread : read args = .ok (q, v))
    (hplace : placeOf w v = .ok path) (hfile : ∀ bytes, w.disk.status path ≠ .ok (.file bytes)) :
    (runProgram w args).result =
      if w.disk.status path = .error .nameTooLong
        then .error (.place (.system .nameTooLong path.text)) else .ok .input := by
  simp only [runProgram, hread, serve, hplace, Disk.status?]
  cases hstatus : w.disk.status path with
  | ok found =>
      cases found with
      | directory => rfl
      | link target => rfl
      | file bytes => exact absurd hstatus (hfile bytes)
  | error e =>
      rcases Disk.errno_of_status hstatus with rfl | habsent
      · rfl
      · have hshort : e ≠ .nameTooLong := by
          rintro rfl
          exact nomatch habsent
        simp [habsent, hshort]

/-- What the name of a fault tells is what the program makes of it. -/
theorem result_generateAt (w : Workspace) (q : Request) (path : Path) :
    (generateAt w q path).result = match generated w q path with
      | .ok _ => .ok .success
      | .error f =>
        match areaOfLabel f.label with
        | .configuration => .ok .configuration
        | .template => .ok .template
        | .system => .ok .system
        | .unexpected => .error f := by
  unfold generateAt generated
  cases hresult : (Generation.generateFile w none (.ofPath path) q.overrides).result with
  | ok report => simp only [hresult]
  | error f =>
      simp only [hresult, statusOf, Generation.area_eq f]
      cases areaOfLabel f.label <;> rfl

/-! ## Endings -/

/-- **How each status comes about.** -/
inductive EndsWith (w : Workspace) (args : List String) : Status → Prop
  | told {what : Notice} (hread : read args = .error (.told what)) : EndsWith w args .success
  | done {q : Request} {path : Path} {report : Report} (hserves : Serves w args q path)
      (h : generated w q path = .ok report) : EndsWith w args .success
  | configuration {q : Request} {path : Path} {f : Fault} (hserves : Serves w args q path)
      (h : generated w q path = .error f) (hlabel : f.label = "ConfigurationError") :
      EndsWith w args .configuration
  | system {q : Request} {path : Path} {f : Fault} (hserves : Serves w args q path)
      (h : generated w q path = .error f) (hlabel : f.label ∈ systemLabels) :
      EndsWith w args .system
  | usage (hread : read args = .error .usage) : EndsWith w args .input
  /-- There is no file where the schema file should be. -/
  | noFile {q : Request} {v : Value} {path : Path} (hread : read args = .ok (q, v))
      (hplace : placeOf w v = .ok path) (hfile : ∀ bytes, w.disk.status path ≠ .ok (.file bytes))
      (hshort : w.disk.status path ≠ .error .nameTooLong) : EndsWith w args .input

/-- **What leaves the program without a status**, with the name of the fault: the schema file or the
    directory for the results has no place; the path of the schema file is too long to be looked up; or
    the run over it meets what is not expected. -/
inductive Uncaught (w : Workspace) (args : List String) : String → Prop
  | schema {q : Request} {v : Value} {f : Fault} (hread : read args = .ok (q, v))
      (h : Placeless w v f) : Uncaught w args f.label
  | tooLong {q : Request} {v : Value} {path : Path} (hread : read args = .ok (q, v))
      (hplace : placeOf w v = .ok path) (h : w.disk.status path = .error .nameTooLong) :
      Uncaught w args "OSError"
  | results {q : Request} {v u : Value} {path : Path} {bytes : List UInt8} {f : Fault}
      (hread : read args = .ok (q, v)) (hplace : placeOf w v = .ok path)
      (hfile : w.disk.status path = .ok (.file bytes)) (hresults : q.results? = some u)
      (h : Placeless w u f) : Uncaught w args f.label
  | generation {q : Request} {path : Path} {name : String} (hserves : Serves w args q path)
      (h : Unforeseen w none (.ofPath path) q.overrides name) : Uncaught w args name

theorem areaOfLabel_eq_system {name : String} (h : name ∈ systemLabels) :
    areaOfLabel name = .system := by
  have hall : ∀ s ∈ systemLabels, areaOfLabel s = .system := by decide
  exact hall name h

theorem EndsWith.result {s : Status} (h : EndsWith w args s) : (runProgram w args).result = .ok s := by
  cases h with
  | told hread => simp only [runProgram, hread]
  | usage hread => simp only [runProgram, hread]
  | done hserves h => rw [result_of_serves hserves, result_generateAt, h]
  | configuration hserves h hlabel =>
      rw [result_of_serves hserves, result_generateAt, h]
      simp only [hlabel]
      rfl
  | system hserves h hlabel =>
      rw [result_of_serves hserves, result_generateAt, h]
      simp only [areaOfLabel_eq_system hlabel]
  | noFile hread hplace hfile hshort =>
      rw [result_of_noFile hread hplace hfile, if_neg hshort]

theorem Uncaught.result (hwhole : WholeSchema w args) {name : String} (h : Uncaught w args name) :
    ∃ f, (runProgram w args).result = .error f ∧ f.label = name := by
  cases h with
  | @schema q v f hread h =>
      exact ⟨f, by simp only [runProgram, hread, serve, placeOf_eq_error.mpr h], rfl⟩
  | tooLong hread hplace h =>
      have hnofile : ∀ bytes, w.disk.status _ ≠ .ok (.file bytes) := fun _ hfile =>
        nomatch h.symm.trans hfile
      refine ⟨_, (result_of_noFile hread hplace hnofile).trans (if_pos h), rfl⟩
  | results hread hplace hfile hresults h =>
      exact ⟨_, result_of_results hread hplace hfile hresults (placeOf_eq_error.mpr h), rfl⟩
  | generation hserves h =>
      obtain ⟨f, hf, harea, rfl⟩ :=
        (Generation.generateFile_unforeseen (hwhole _ _ hserves)).mpr h
      refine ⟨f, ?_, rfl⟩
      have hgenerated : generated w _ _ = .error f := hf
      rw [Generation.area_eq] at harea
      rw [result_of_serves hserves, result_generateAt, hgenerated]
      simp only [harea]

end Scaffold.CommandLine
