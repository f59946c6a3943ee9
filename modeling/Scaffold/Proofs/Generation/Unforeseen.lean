import Scaffold.Proofs.Generation.Escaping
import Scaffold.Proofs.Generation.Guarding
import Scaffold.Proofs.Generation.Rendering
import Scaffold.Proofs.Generation.Sequence
import Scaffold.Proofs.Schema.Obstacle

/-!
# `Scaffold.Proofs.Generation.Unforeseen` — faults that nothing expects

What no part of the program expects is listed here: schema files that cannot be loaded, options that
cannot be overridden, defaults and options that cannot be written, styles that cannot be shown, and paths
that name no place or none below the root (`Unforeseen`). A run over a schema file ends with such a fault
exactly where one of these is met (`generateFile_unforeseen`); all its other faults are of the
configuration or of the file system.

## Contents
- **Options.** `overrideOptions_eq_error`.
- **Directories.** `area_ensureAll`.
- **Files.** `Reaches`, `Halts`, `Writes.stop_iff`, `write_eq_nullByte`, `area_write`.
- **Runs.** `Interrupted`, `run_eq_error`, `run_interrupted`, `area_run_ne`.
- **The list.** `Unforeseen`, `generateFile_eq_error`, `area_generateFile_ne`,
  `generateFile_unforeseen`.
-/

namespace Scaffold.Generation

open Disk (Errno Failure Path)
open Schema (Entity Location Options)
open Source (RenderFault)

/-! ## Options -/

/-- Options are overridden unless they are something else than a mapping, and make none. -/
theorem overrideOptions_eq_error {doc : Entries} {given : List (String × Value)}
    {fault : MappingFault} : overrideOptions doc given = .error fault ↔
      given ≠ [] ∧ ∃ entry, Schema.firstOf doc Schema.optionKeys = some entry ∧
        entry.2.truthy = true ∧ Entries.ofValue entry.2 = .error fault := by
  unfold overrideOptions
  cases given with
  | nil => simp [pure, Except.pure]
  | cons g given =>
      cases Schema.firstOf doc Schema.optionKeys with
      | none => simp [Value.truthy, bind, Except.bind, pure, Except.pure]
      | some entry =>
          obtain ⟨key, own⟩ := entry
          cases htruthy : own.truthy with
          | false => simp [htruthy, bind, Except.bind, pure, Except.pure]
          | true =>
              cases hown : Entries.ofValue own <;>
                simp [htruthy, hown, bind, Except.bind, pure, Except.pure]

/-! ## Directories -/

/-- Making directories fails as the file system does. -/
theorem area_isDirectory {d : Disk} {p : Path} {f : Failure} (h : d.isDirectory p = .error f) :
    areaOfFailure f = .system := by
  have h := Results.map_eq_error.mp h
  unfold Disk.status? at h
  split at h
  · exact nomatch h
  · split at h
    · exact nomatch h
    · cases h
      rfl

theorem area_alreadyThere {d : Disk} {p : Path} {e : Errno} {f : Failure}
    (h : d.alreadyThere p e = some f) : areaOfFailure f = .system := by
  unfold Disk.alreadyThere at h
  split at h
  · exact nomatch h
  · cases h
    rfl
  · rename_i hfault
    cases h
    exact area_isDirectory hfault

theorem area_makeDirectory {fuel : Nat} {d : Disk} {p : Path} {f : Failure}
    (h : (Disk.makeDirectory fuel d p).2 = some f) : areaOfFailure f = .system := by
  induction fuel generalizing d p with
  | zero =>
      unfold Disk.makeDirectory at h
      split at h
      · exact nomatch h
      · exact area_alreadyThere h
  | succ n ih =>
      unfold Disk.makeDirectory at h
      split at h
      · exact nomatch h
      · split at h
        · -- the directory above is made first
          split at h
          · rename_i hsucc _ _ _ _ habove
            cases hsucc
            cases h
            exact ih (congrArg Prod.snd habove)
          · split at h
            · exact nomatch h
            · exact area_alreadyThere h
        · exact area_alreadyThere h

theorem area_ensureDirectory {d : Disk} {p : Path} {f : Failure}
    (h : (d.ensureDirectory p).2 = .error f) : areaOfFailure f = .system := by
  unfold Disk.ensureDirectory at h
  split at h
  · rename_i hfault
    cases h
    exact area_isDirectory hfault
  · exact nomatch h
  · split at h
    · exact nomatch h
    · rename_i hmake
      cases h
      exact area_makeDirectory (congrArg Prod.snd hmake)

theorem area_ensureAll {d : Disk} {ps : List Path} {f : Failure}
    (h : (d.ensureAll ps).2 = .error f) : areaOfFailure f = .system := by
  induction ps generalizing d with
  | nil => exact nomatch h
  | cons p ps ih =>
      unfold Disk.ensureAll at h
      split at h
      · rename_i hfault
        cases h
        exact area_ensureDirectory (congrArg Prod.snd hfault)
      · exact ih (Results.map_eq_error.mp h)

/-! ## Files -/

/-- **Writing comes to a draft**: those before it are rendered, written, and lie below the root. -/
inductive Reaches (f : Formatter) (root : Path) : Disk → List Draft → Draft → Disk → Prop
  | here (d : Disk) (x : Draft) (xs : List Draft) : Reaches f root d (x :: xs) x d
  | there {d d₁ d' : Disk} {x y : Draft} {xs : List Draft} {p : Path} {text : String}
      (hx : x.written f = .ok (p, text)) (hroot : root <+: p) (hwrite : d.write p text = .ok d₁)
      (rest : Reaches f root d₁ xs y d') : Reaches f root d (x :: xs) y d'

/-- **Writing ends at a draft**: it cannot be rendered, or not be written, or it does not lie below
    the root. -/
inductive Halts (f : Formatter) (root : Path) (d : Disk) (x : Draft) : Stop → Prop
  | render {fault : RenderFault} (h : x.text = .error fault) : Halts f root d x (.render fault)
  | write {p : Path} {text : String} {failure : Failure} (hx : x.written f = .ok (p, text))
      (hwrite : d.write p text = .error failure) : Halts f root d x (.write (.disk failure))
  | outside {p : Path} {text : String} {d' : Disk} (hx : x.written f = .ok (p, text))
      (hwrite : d.write p text = .ok d') (hroot : ¬ root <+: p) :
      Halts f root d x (.write (.outside p root))

theorem recordOf_eq_ok {root p : Path} {text : String} {record : FileRecord}
    (h : recordOf root p text = .ok record) : root <+: p := by
  unfold recordOf at h
  split at h
  · exact nomatch h
  · rename_i way hway
    exact ⟨way, (Disk.below?_eq_some_iff.mp hway).symm⟩

theorem recordOf_eq_error {root p : Path} {text : String} {fault : WriteFault}
    (h : recordOf root p text = .error fault) : fault = .outside p root ∧ ¬ root <+: p := by
  unfold recordOf at h
  split at h
  · rename_i hnone
    cases h
    refine ⟨rfl, fun ⟨way, hway⟩ => ?_⟩
    rw [Disk.below?_eq_some_iff.mpr hway.symm] at hnone
    exact nomatch hnone
  · exact nomatch h

/-- At a draft that was written below the root writing does not end. -/
theorem not_halts {f : Formatter} {root : Path} {d d' : Disk} {x : Draft} {p : Path} {text : String}
    (hx : x.written f = .ok (p, text)) (hwrite : d.write p text = .ok d') (hroot : root <+: p)
    {s : Stop} : ¬ Halts f root d x s := by
  intro h
  cases h with
  | render h =>
      obtain ⟨_, htext, -⟩ := Results.map_eq_ok.mp hx
      exact nomatch h.symm.trans htext
  | write hx' hwrite' =>
      cases hx.symm.trans hx'
      exact nomatch hwrite.symm.trans hwrite'
  | outside hx' _ hnot =>
      cases hx.symm.trans hx'
      exact hnot hroot

/-- Writing ends at a draft for one reason. -/
theorem Halts.unique {f : Formatter} {root : Path} {d : Disk} {x : Draft} {s t : Stop}
    (h : Halts f root d x s) (g : Halts f root d x t) : s = t := by
  have hrendered : ∀ {p : Path} {text : String} {fault : RenderFault},
      x.written f = .ok (p, text) → x.text ≠ .error fault := by
    intro p text fault hx hfault
    obtain ⟨_, htext, -⟩ := Results.map_eq_ok.mp hx
    exact nomatch hfault.symm.trans htext
  cases h with
  | render h =>
      cases g with
      | render g =>
          cases h.symm.trans g
          rfl
      | write hx => exact absurd h (hrendered hx)
      | outside hx => exact absurd h (hrendered hx)
  | write hx hwrite =>
      cases g with
      | render g => exact absurd g (hrendered hx)
      | write hx' hwrite' =>
          cases hx.symm.trans hx'
          cases hwrite.symm.trans hwrite'
          rfl
      | outside hx' hwrite' =>
          cases hx.symm.trans hx'
          exact nomatch hwrite.symm.trans hwrite'
  | outside hx hwrite =>
      cases g with
      | render g => exact absurd g (hrendered hx)
      | write hx' hwrite' =>
          cases hx.symm.trans hx'
          exact nomatch hwrite.symm.trans hwrite'
      | outside hx' =>
          cases hx.symm.trans hx'
          rfl

/-- **Writing ends early exactly where it comes to a draft at which it ends.** -/
theorem Writes.stop_iff {f : Formatter} {root : Path} {d d' : Disk} {xs : List Draft}
    {rs : List FileRecord} {stop : Option Stop} (h : Writes f root d xs rs d' stop) {s : Stop} :
    stop = some s ↔ ∃ x d₁, Reaches f root d xs x d₁ ∧ Halts f root d₁ x s := by
  -- where writing ends at the first draft, the others do not count
  have hfirst : ∀ {d : Disk} {x : Draft} {xs : List Draft} {t : Stop}, Halts f root d x t →
      (some t = some s ↔ ∃ y d₁, Reaches f root d (x :: xs) y d₁ ∧ Halts f root d₁ y s) := by
    intro d x xs t ht
    constructor
    · rintro ⟨⟩
      exact ⟨x, d, .here d x xs, ht⟩
    · rintro ⟨y, d₁, hreach, hhalts⟩
      cases hreach with
      | here => rw [ht.unique hhalts]
      | there hx hroot hwrite => exact absurd ht (not_halts hx hwrite hroot)
  induction xs generalizing d rs with
  | nil =>
      cases h
      constructor
      · exact nofun
      · rintro ⟨_, _, hreach, -⟩
        exact nomatch hreach
  | cons x xs ih =>
      cases h with
      | next hx hwrite hrecord rest =>
          have hroot := recordOf_eq_ok hrecord
          refine (ih rest).trans ⟨?_, ?_⟩
          · rintro ⟨y, d₁, hreach, hhalts⟩
            exact ⟨y, d₁, .there hx hroot hwrite hreach, hhalts⟩
          · rintro ⟨y, d₁, hreach, hhalts⟩
            cases hreach with
            | here => exact absurd hhalts (not_halts hx hwrite hroot)
            | there hx' _ hwrite' hreach =>
                cases hx.symm.trans hx'
                cases hwrite.symm.trans hwrite'
                exact ⟨y, d₁, hreach, hhalts⟩
      | unrendered hx => exact hfirst (.render hx)
      | unwritten hx hwrite => exact hfirst (.write hx hwrite)
      | unrecorded hx hwrite hrecord =>
          obtain ⟨rfl, hroot⟩ := recordOf_eq_error hrecord
          exact hfirst (.outside hx hwrite hroot)

/-- A path holds a NUL. -/
def HoldsNul (p : Path) : Prop := ∃ s ∈ p, '\x00' ∈ s.toList

theorem write_eq_nullByte {d : Disk} {p : Path} {text : String} :
    d.write p text = .error .nullByte ↔ HoldsNul p := by
  unfold Disk.write HoldsNul
  by_cases h : ∃ s ∈ p, '\x00' ∈ s.toList
  · rw [if_pos (by simpa using h)]
    exact ⟨fun _ => h, fun _ => rfl⟩
  · rw [if_neg (by simpa using h)]
    refine ⟨fun hwrite => ?_, fun hnul => absurd hnul h⟩
    split at hwrite
    · exact nomatch hwrite
    · split at hwrite <;> exact nomatch hwrite

/-- Else writing fails as the file system does. -/
theorem area_write {d : Disk} {p : Path} {text : String} {f : Failure}
    (h : d.write p text = .error f) : f = .nullByte ∨ areaOfFailure f = .system := by
  unfold Disk.write at h
  split at h
  · cases h
    exact .inl rfl
  · split at h
    · cases h
      exact .inr rfl
    · split at h
      · cases h
        exact .inr rfl
      · exact nomatch h

/-! ## Runs -/

/-- **What interrupts a run unexpectedly**, and the name of the fault. The directories are there, and
    the run has come to a file: a model with options that cannot be written; or a file whose path holds
    a NUL; or one that is written, but not below the root. -/
inductive Interrupted (f : Formatter) (j : Job) (d : Disk) : String → Prop
  | unwritable {made : List Path} {e : Entity} {reached : Disk} {cause : Json.Unwritable}
      (hready : (j.ready d).2 = .ok made)
      (hreach : Reaches f j.layout.root (j.ready d).1 j.sequence (j.entityDraft .model e) reached)
      (htext : (j.entityDraft .model e).text = .error (.unwritable cause)) :
      Interrupted f j d cause.label
  | nullByte {made : List Path} {x : Draft} {reached : Disk} {text : String}
      (hready : (j.ready d).2 = .ok made)
      (hreach : Reaches f j.layout.root (j.ready d).1 j.sequence x reached)
      (htext : x.text = .ok text) (hnul : HoldsNul x.place) : Interrupted f j d "ValueError"
  | outside {made : List Path} {x : Draft} {reached after : Disk} {file : Path × String}
      (hready : (j.ready d).2 = .ok made)
      (hreach : Reaches f j.layout.root (j.ready d).1 j.sequence x reached)
      (hx : x.written f = .ok file) (hwrite : reached.write file.1 file.2 = .ok after)
      (hroot : ¬ j.layout.root <+: x.place) : Interrupted f j d "ValueError"

/-- A run fails where a directory cannot be made, or where it comes to a file at which it ends. -/
theorem run_eq_error {f : Formatter} {j : Job} {d : Disk} {fault : Fault} :
    (j.run f d).result = .error fault ↔
      (∃ failure, (j.ready d).2 = .error failure ∧ fault = .stopped (.directories failure)) ∨
        ∃ made stop x reached, (j.ready d).2 = .ok made ∧ fault = .stopped stop ∧
          Reaches f j.layout.root (j.ready d).1 j.sequence x reached ∧
          Halts f j.layout.root reached x stop := by
  have hstops := fun s => (j.writes_course f d).stop_iff (s := s)
  obtain ⟨failure, hfail, hrun⟩ | ⟨made, hmade, ⟨stop, hstop, hrun⟩ | ⟨hstop, hrun⟩⟩ := j.run_eq f d
  · rw [hrun, hfail]
    simp [eq_comm]
  · rw [hrun, hmade]
    constructor
    · rintro ⟨⟩
      obtain ⟨x, reached, hreach, hhalts⟩ := (hstops stop).mp hstop
      exact .inr ⟨made, stop, x, reached, rfl, rfl, hreach, hhalts⟩
    · rintro (⟨failure, hfail, -⟩ | ⟨-, stop', x, reached, -, rfl, hreach, hhalts⟩)
      · exact nomatch hfail
      · cases hstop.symm.trans ((hstops stop').mpr ⟨x, reached, hreach, hhalts⟩)
        rfl
  · rw [hrun, hmade]
    constructor
    · exact nofun
    · rintro (⟨failure, hfail, -⟩ | ⟨-, stop, x, reached, -, -, hreach, hhalts⟩)
      · exact nomatch hfail
      · exact nomatch hstop.symm.trans ((hstops stop).mpr ⟨x, reached, hreach, hhalts⟩)

/-- Drafts that writing comes to are among those that are written. -/
theorem Reaches.mem {f : Formatter} {root : Path} {d d' : Disk} {xs : List Draft} {x : Draft}
    (h : Reaches f root d xs x d') : x ∈ xs := by
  induction h with
  | here => exact List.mem_cons_self
  | there _ _ _ _ ih => exact List.mem_cons_of_mem _ ih

/-- **A run ends with a fault that nothing expects exactly where it is interrupted so.** -/
theorem run_interrupted {f : Formatter} {j : Job} {eol : Text.Eol} (heol : j.eol = .ok eol) {d : Disk}
    {name : String} : Escapes (j.run f d).result name ↔ Interrupted f j d name := by
  constructor
  · rintro ⟨fault, hfault, harea, rfl⟩
    obtain ⟨failure, hready, rfl⟩ | ⟨made, stop, x, reached, hready, rfl, hreach, hhalts⟩ :=
      run_eq_error.mp hfault
    · exact nomatch (area_ensureAll hready).symm.trans harea
    · cases hhalts with
      | render h =>
          rcases text_cases heol x hreach.mem with ⟨text, htext⟩ | ⟨e, -, rfl, cause, htext⟩
          · exact nomatch h.symm.trans htext
          · cases h.symm.trans htext
            exact .unwritable hready hreach htext
      | write hx hwrite =>
          obtain ⟨text, htext, -⟩ := Results.map_eq_ok.mp hx
          rcases area_write hwrite with rfl | hsystem
          · exact .nullByte hready hreach htext (place_of_written hx ▸ write_eq_nullByte.mp hwrite)
          · exact nomatch hsystem.symm.trans harea
      | outside hx hwrite hroot =>
          exact .outside hready hreach hx hwrite (place_of_written hx ▸ hroot)
  · intro h
    cases h with
    | unwritable hready hreach htext =>
        exact ⟨_, run_eq_error.mpr (.inr ⟨_, _, _, _, hready, rfl, hreach, .render htext⟩), rfl, rfl⟩
    | @nullByte made x reached text hready hreach htext hnul =>
        have hx : x.written f = .ok (x.place, (f.apply text x.source x.parser).1) :=
          Results.map_eq_ok.mpr ⟨text, htext, rfl⟩
        exact ⟨_, run_eq_error.mpr (.inr ⟨_, _, _, _, hready, rfl, hreach,
          .write hx (write_eq_nullByte.mpr hnul)⟩), rfl, rfl⟩
    | @outside made x reached after file hready hreach hx hwrite hroot =>
        have hplace : ¬ j.layout.root <+: file.1 := by rwa [place_of_written hx]
        have hfile : x.written f = .ok (file.1, file.2) := hx
        exact ⟨_, run_eq_error.mpr (.inr ⟨_, _, _, _, hready, rfl, hreach,
          .outside hfile hwrite hplace⟩), rfl, rfl⟩

/-- **Whatever is met in a run over a schema file and not expected**, with the name of the fault: the
    file cannot be loaded; its options are no mapping, though some are put over them; a default cannot
    be written; the entities are valid, but what the options give for a style is none and cannot be shown;
    the directory for the results names no place; or the run is interrupted. -/
inductive Unforeseen (w : Workspace) (formatter : Option Formatter) (l : Location)
    (given : List (String × Value)) : String → Prop
  | load {name : String} (h : Unloadable w.disk l name) : Unforeseen w formatter l given name
  | overrides {own : Entries} {entry : String × Value} {fault : MappingFault}
      (hload : (Schema.load w.disk l).2 = .ok own) (hgiven : given ≠ [])
      (hfirst : Schema.firstOf own Schema.optionKeys = some entry)
      (htruthy : entry.2.truthy = true) (h : Entries.ofValue entry.2 = .error fault) :
      Unforeseen w formatter l given (mappingLabel fault)
  | default {doc : Entries} {entry : String × Value} {items : List Value} {options : Value}
      {cause : Json.Unwritable} (hgiven : Given w l given doc)
      (hfirst : Schema.firstOf doc Schema.entityKeys = some entry)
      (hitems : entry.2.listItems? = some items) (hoptions : (Schema.optionsOf doc).2 = .ok options)
      (h : Schema.StopsAt items cause) : Unforeseen w formatter l given cause.label
  | style {doc : Entries} {entry : String × Value} {items : List Value} {options : Value}
      {es : List Entity} {cause : Json.Unwritable} (hgiven : Given w l given doc)
      (hfirst : Schema.firstOf doc Schema.entityKeys = some entry)
      (hitems : entry.2.listItems? = some items) (hoptions : (Schema.optionsOf doc).2 = .ok options)
      (hread : (Schema.readEntityList 0 items).result = .ok es)
      (hdistinct : Schema.repeated (es.map Entity.name) = [])
      (h : options.entries?.bind Options.obstacle? = some cause) :
      Unforeseen w formatter l given cause.label
  | place {doc : Entries} {es : List Entity} {o : Options} {fault : Fault}
      (hgiven : Given w l given doc) (hread : (Schema.readDocument w.platform doc).result = .ok (es, o))
      (h : Placeless w (.text o.resultsPath) fault) : Unforeseen w formatter l given fault.label
  | run {doc : Entries} {es : List Entity} {o : Options} {j : Job} {name : String}
      (hgiven : Given w l given doc) (hread : (Schema.readDocument w.platform doc).result = .ok (es, o))
      (hjob : prepare w es o.settings = .ok j)
      (h : Interrupted (formatter.getD (ownFormatter w o.settings)) j w.disk name) :
      Unforeseen w formatter l given name

/-- Options that a document gives are legal. -/
theorem legal_of_readDocument {platform : String} {doc : Entries} {es : List Entity} {o : Options}
    (h : (Schema.readDocument platform doc).result = .ok (es, o)) : o.Legal := by
  obtain ⟨_, _, _, _, -, -, -, -, -, hread⟩ := Schema.readDocument_eq_ok.mp h
  exact Schema.legal_of_read hread

theorem eol_of_prepare {w : Workspace} {es : List Entity} {o : Options} (ho : o.Legal) {j : Job}
    (hj : prepare w es o.settings = .ok j) : j.eol = .ok o.eol := by
  obtain ⟨root, -, -, rfl⟩ := prepare_eq_ok ho hj
  rfl

/-- A run over a schema file fails in one of its parts. -/
theorem generateFile_eq_error {w : Workspace} {formatter : Option Formatter} {l : Location}
    {given : List (String × Value)} {f : Fault} :
    (generateFile w formatter l given).result = .error f ↔
      (∃ g, (Schema.load w.disk l).2 = .error g ∧ f = .load g) ∨
      (∃ own g, (Schema.load w.disk l).2 = .ok own ∧ overrideOptions own given = .error g ∧
        f = .overrides g) ∨
      (∃ doc g, Given w l given doc ∧ (Schema.readDocument w.platform doc).result = .error g ∧
        f = .document g) ∨
      ∃ doc es o, Given w l given doc ∧
        (Schema.readDocument w.platform doc).result = .ok (es, o) ∧
        (generate w formatter es o.settings).result = .error f := by
  unfold generateFile Given
  cases Schema.load w.disk l with
  | mk log loaded =>
      cases loaded with
      | error g => simp [eq_comm]
      | ok own =>
          cases hover : overrideOptions own given with
          | error g => simp [hover, eq_comm]
          | ok doc =>
              cases hread : (Schema.readDocument w.platform doc).result with
              | error g => simp [hover, hread, eq_comm]
              | ok pair =>
                  obtain ⟨es, o⟩ := pair
                  simp [hover, hread, Results.map_eq_error]

/-- Generating with legal options fails before the run, or in it. -/
theorem generate_eq_error {w : Workspace} {formatter : Option Formatter} {es : List Entity}
    {o : Options} (ho : o.Legal) {f : Fault} :
    (generate w formatter es o.settings).result = .error f ↔
      Placeless w (.text o.resultsPath) f ∨
      f = .noModule o.resultsPath ∧ w.disk.resolve w.here o.resultsPath = .ok [] ∨
      ∃ j, prepare w es o.settings = .ok j ∧
        (j.run (formatter.getD (ownFormatter w o.settings)) w.disk).result = .error f := by
  unfold generate
  rw [prepare_settings ho]
  have hplaceless : ∀ f, Placeless w (.text o.resultsPath) f ↔
      ∃ g, w.disk.resolve w.here o.resultsPath = .error g ∧ Fault.place g = f :=
    fun f => placeless_iff.symm.trans Results.mapError_eq_error
  rw [hplaceless]
  cases w.disk.resolve w.here o.resultsPath with
  | error g => simp
  | ok root =>
      by_cases hroot : root = []
      · simp [hroot, eq_comm]
      · simp [hroot]

/-- **A run over a schema file ends with a fault that nothing expects exactly if what is not expected is
    met.** No half of a surrogate pair stands alone in the file. -/
theorem generateFile_unforeseen {w : Workspace} {formatter : Option Formatter} {l : Location}
    {given : List (String × Value)} (hwhole : Whole (Schema.load w.disk l).2) {name : String} :
    Escapes (generateFile w formatter l given).result name ↔ Unforeseen w formatter l given name := by
  constructor
  · rintro ⟨f, hf, harea, rfl⟩
    obtain ⟨g, hload, rfl⟩ | ⟨own, g, hload, hover, rfl⟩ | ⟨doc, g, hgiven, hread, rfl⟩ |
      ⟨doc, es, o, hgiven, hread, hf⟩ := generateFile_eq_error.mp hf
    · exact .load ((load_unloadable hwhole).mp
        ⟨_, Results.mapError_eq_error.mpr ⟨g, hload, rfl⟩, harea, rfl⟩)
    · obtain ⟨hgiven, entry, hfirst, htruthy, h⟩ := overrideOptions_eq_error.mp hover
      exact .overrides hload hgiven hfirst htruthy h
    · cases g with
      | unwritable cause =>
          obtain ⟨entry, items, options, hfirst, hitems, hoptions, hstops | ⟨es, hes, hdistinct, h⟩⟩ :=
            Schema.readDocument_eq_unwritable.mp hread
          · exact .default hgiven hfirst hitems hoptions hstops
          · exact .style hgiven hfirst hitems hoptions hes hdistinct h
      | _ => exact nomatch harea
    · have ho := legal_of_readDocument hread
      obtain hplace | ⟨rfl, -⟩ | ⟨j, hjob, hrun⟩ := (generate_eq_error ho).mp hf
      · exact .place hgiven hread hplace
      · exact nomatch harea
      · exact .run hgiven hread hjob
          ((run_interrupted (eol_of_prepare ho hjob)).mp ⟨f, hrun, harea, rfl⟩)
  · intro h
    cases h with
    | load h =>
        obtain ⟨f, hload, harea, hlabel⟩ := (load_unloadable hwhole).mpr h
        obtain ⟨g, hg, rfl⟩ := Results.mapError_eq_error.mp hload
        exact ⟨_, generateFile_eq_error.mpr (.inl ⟨g, hg, rfl⟩), harea, hlabel⟩
    | overrides hload hgiven hfirst htruthy h =>
        exact ⟨_, generateFile_eq_error.mpr (.inr (.inl ⟨_, _, hload,
          overrideOptions_eq_error.mpr ⟨hgiven, _, hfirst, htruthy, h⟩, rfl⟩)), rfl, rfl⟩
    | default hgiven hfirst hitems hoptions h =>
        exact ⟨_, generateFile_eq_error.mpr (.inr (.inr (.inl ⟨_, _, hgiven,
          Schema.readDocument_eq_unwritable.mpr ⟨_, _, _, hfirst, hitems, hoptions, .inl h⟩,
          rfl⟩))), rfl, rfl⟩
    | style hgiven hfirst hitems hoptions hread hdistinct h =>
        exact ⟨_, generateFile_eq_error.mpr (.inr (.inr (.inl ⟨_, _, hgiven,
          Schema.readDocument_eq_unwritable.mpr
            ⟨_, _, _, hfirst, hitems, hoptions, .inr ⟨_, hread, hdistinct, h⟩⟩, rfl⟩))), rfl, rfl⟩
    | place hgiven hread h =>
        exact ⟨_, generateFile_eq_error.mpr (.inr (.inr (.inr ⟨_, _, _, hgiven, hread,
          (generate_eq_error (legal_of_readDocument hread)).mpr (.inl h)⟩))), h.area, rfl⟩
    | @run doc es o j name hgiven hread hjob h =>
        have ho := legal_of_readDocument hread
        obtain ⟨f, hrun, harea, rfl⟩ := (run_interrupted (eol_of_prepare ho hjob)).mpr h
        exact ⟨f, generateFile_eq_error.mpr (.inr (.inr (.inr ⟨_, _, _, hgiven, hread,
          (generate_eq_error ho).mpr (.inr (.inr ⟨j, hjob, hrun⟩))⟩))), harea, rfl⟩

end Scaffold.Generation
