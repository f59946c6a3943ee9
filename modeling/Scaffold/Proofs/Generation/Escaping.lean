import Scaffold.Generation.Generate
import Scaffold.Proofs.Json.Writer

/-!
# `Scaffold.Proofs.Generation.Escaping` — what is expected and what is not

A fault is one of the configuration, of a template or of the file system, or one that no part of the
program expects. Its name tells which it is (`area_eq`). Two sources of faults that are not expected lie
before a run: values that name no place (`Placeless`), and schema files that cannot be decoded or whose
text cannot be read (`Unloadable`).

## Contents
- **Names.** `areaOfLabel`, `area_eq`, `Escapes`.
- **Places.** `Placeless`, `resolve_eq_error`, `placeless_iff`.
- **Texts.** `Unreadable`, `unreadable_iff`.
- **Files.** `Unloadable`, `load_of_file`, `load_unloadable`.
-/

namespace Scaffold.Generation

open Disk (Errno Failure Path)
open Schema (Format LoadFault Location)

/-! ## Names -/

/-- What messages call failures of the file system. -/
def systemLabels : List String :=
  ["FileNotFoundError", "PermissionError", "FileExistsError", "NotADirectoryError",
   "IsADirectoryError", "OSError"]

/-- The area that the name of a fault tells. -/
def areaOfLabel (name : String) : Area :=
  if name = "ConfigurationError" then .configuration
  else if name = "UndefinedError" then .template
  else if systemLabels.contains name then .system
  else .unexpected

theorem areaOfLabel_errno (e : Errno) : areaOfLabel e.label = .system := by
  cases e <;> decide

theorem areaOfLabel_failure (f : Failure) : areaOfLabel f.label = areaOfFailure f := by
  cases f with
  | system e path => exact areaOfLabel_errno e
  | nullByte => rfl
  | linkLoop path => rfl

theorem areaOfLabel_unwritable (c : Json.Unwritable) : areaOfLabel c.label = .unexpected := by
  rcases c.label_cases with h | h | h <;> rw [h] <;> decide

theorem areaOfLabel_mapping (f : MappingFault) : areaOfLabel (mappingLabel f) = .unexpected := by
  cases f <;> rfl

theorem areaOfLabel_load (f : LoadFault) : areaOfLabel f.label = areaOfLoad f := by
  cases f with
  | missing shown => rfl
  | notFile shown => rfl
  | unreadable failure => exact areaOfLabel_failure failure
  | encoding fault => rfl
  | json shown report =>
      obtain ⟨cause, line, column, position⟩ := report
      cases cause <;> rfl
  | yaml shown failure =>
      cases failure with
      | codePoint n =>
          have hlabel : LoadFault.yamlLabel (.codePoint n) = "ValueError" ∨
              LoadFault.yamlLabel (.codePoint n) = "OverflowError" := ite_eq_or_eq _ _ _
          show areaOfLabel (LoadFault.yamlLabel (.codePoint n)) =
            if decide (LoadFault.yamlLabel (.codePoint n) = "ConfigurationError")
              then .configuration else .unexpected
          rcases hlabel with h | h <;> rw [h] <;> rfl
      | _ => rfl
  | notObject kind => rfl
  | notMapping kind => rfl

theorem areaOfLabel_stop (s : Stop) : areaOfLabel s.label = s.area := by
  cases s with
  | directories f => exact areaOfLabel_failure f
  | render fault =>
      cases fault with
      | undefined name => rfl
      | noEntry name => rfl
      | unwritable cause => exact areaOfLabel_unwritable cause
      | noLineEnding kind => rfl
  | write fault =>
      cases fault with
      | disk f => exact areaOfLabel_failure f
      | outside target root => rfl

/-- **The name of a fault tells its area.** -/
theorem area_eq (f : Fault) : f.area = areaOfLabel f.label := by
  cases f with
  | load f => exact (areaOfLabel_load f).symm
  | overrides f => exact (areaOfLabel_mapping f).symm
  | document f =>
      cases f with
      | unwritable cause => exact (areaOfLabel_unwritable cause).symm
      | _ => rfl
  | policy f =>
      cases f with
      | style f =>
          show (if f.cause?.isSome = true then Area.unexpected else .configuration) =
            areaOfLabel (f.cause?.elim "ConfigurationError" Json.Unwritable.label)
          cases f.cause? with
          | none => rfl
          | some cause => exact (areaOfLabel_unwritable cause).symm
      | choice f =>
          show Area.unexpected = areaOfLabel (f.cause?.elim "ValueError" Json.Unwritable.label)
          cases f.cause? with
          | none => rfl
          | some cause => exact (areaOfLabel_unwritable cause).symm
  | notPath kind => rfl
  | place f => exact (areaOfLabel_failure f).symm
  | noModule results => rfl
  | stopped s => exact (areaOfLabel_stop s).symm

/-- A result is a fault of this name that nothing expects. -/
def Escapes {α : Type} (x : Except Fault α) (name : String) : Prop :=
  ∃ f, x = .error f ∧ f.area = .unexpected ∧ f.label = name

@[simp] theorem not_escapes_ok {α : Type} (a : α) (name : String) :
    ¬ Escapes (.ok a : Except Fault α) name := fun ⟨_, h, _⟩ => nomatch h

@[simp] theorem escapes_error {α : Type} (f : Fault) (name : String) :
    Escapes (.error f : Except Fault α) name ↔ f.area = .unexpected ∧ f.label = name :=
  ⟨fun ⟨_, h, harea⟩ => by cases h; exact harea, fun h => ⟨f, rfl, h⟩⟩

/-! ## Places -/

/-- Where the path of a text leads, before it is looked up. -/
def Workspace.target (w : Workspace) (text : String) : Path :=
  (w.disk.follow ((Disk.partsOf text).length + Disk.linkWeight w.disk + 2) []
    (if Disk.isAbsolute text then [] else w.here) (Disk.partsOf text)).1

/-- **A value names no place**: it is no text, or one that holds a NUL, or one that leads through too
    many links. -/
inductive Placeless (w : Workspace) : Value → Fault → Prop
  | notText {v : Value} (h : ∀ s, v ≠ .text s) : Placeless w v (.notPath v.kind)
  | nullByte {s : String} (h : '\x00' ∈ s.toList) : Placeless w (.text s) (.place .nullByte)
  | linkLoop {s : String} (h : '\x00' ∉ s.toList)
      (hloop : w.disk.status (w.target s) = .error .tooManyLinks) :
      Placeless w (.text s) (.place (.linkLoop (w.target s).text))

theorem resolve_eq_error {w : Workspace} {s : String} {f : Failure} :
    w.disk.resolve w.here s = .error f ↔ Placeless w (.text s) (.place f) := by
  constructor
  · intro h
    unfold Disk.resolve at h
    split at h
    · rename_i hnul
      cases h
      exact .nullByte (by simpa using hnul)
    · rename_i hnul
      simp only at h
      split at h
      · rename_i hloop
        cases h
        exact .linkLoop (by simpa using hnul) hloop
      · cases h
  · intro h
    unfold Disk.resolve
    cases h with
    | nullByte hnul => rw [if_pos (by simpa using hnul)]
    | linkLoop hnul hloop =>
        unfold Workspace.target at hloop ⊢
        rw [if_neg (by simpa using hnul)]
        simp only [hloop]

/-- The places that values name are looked up in the same way everywhere. -/
theorem placeless_iff {w : Workspace} {v : Value} {f : Fault} :
    ((pathText v).bind fun s => (w.disk.resolve w.here s).mapError .place) = .error f ↔
      Placeless w v f := by
  by_cases htext : ∃ s, v = .text s
  · obtain ⟨s, rfl⟩ := htext
    refine (Results.mapError_eq_error (x := w.disk.resolve w.here s)).trans ?_
    constructor
    · rintro ⟨failure, hfailure, rfl⟩
      exact resolve_eq_error.mp hfailure
    · intro h
      cases h with
      | notText h => exact absurd rfl (h s)
      | nullByte h => exact ⟨_, resolve_eq_error.mpr (.nullByte h), rfl⟩
      | linkLoop h hloop => exact ⟨_, resolve_eq_error.mpr (.linkLoop h hloop), rfl⟩
  · have hnot : ∀ s, v ≠ .text s := fun s h => htext ⟨s, h⟩
    have hpath : pathText v = .error (.notPath v.kind) := by
      cases v <;> first | rfl | exact absurd rfl (hnot _)
    rw [hpath]
    constructor
    · intro h
      cases h
      exact .notText hnot
    · intro h
      cases h with
      | notText => rfl
      | nullByte => exact absurd rfl (hnot _)
      | linkLoop => exact absurd rfl (hnot _)

/-- None of the faults of a place is expected. -/
theorem Placeless.area {w : Workspace} {v : Value} {f : Fault} (h : Placeless w v f) :
    f.area = .unexpected := by
  cases h <;> rfl

/-! ## Texts -/

/-- **What makes a text unreadable in a format**, and the name of the fault: in JSON an integer with
    too many digits, or collections that go too deep; in YAML all that is wrong with its values. A
    text whose format is not known is read as YAML only if it is no JSON document. -/
inductive Unreadable (shown text : String) : Format → String → Prop
  | longInteger {format : Format} {report : Json.Report} {digits : Nat} (hformat : format ≠ .yaml)
      (hread : Json.read text = .error report) (hcause : report.cause = .longInteger digits) :
      Unreadable shown text format "ValueError"
  | tooDeep {format : Format} {report : Json.Report} {kind : String} (hformat : format ≠ .yaml)
      (hread : Json.read text = .error report) (hcause : report.cause = .tooDeep kind) :
      Unreadable shown text format "RecursionError"
  | yaml {format : Format} {failure : Yaml.Failure} (hformat : format ≠ .json)
      (hfirst : format = .unknown → ∃ f, Schema.parseJson shown text = .error f ∧
        f.isConfiguration = true)
      (hread : Yaml.read text = .error failure) (hfailure : failure ≠ .malformed) :
      Unreadable shown text format (LoadFault.yamlLabel failure)

/-- Reading comes to no half of a surrogate pair that stands alone. -/
def Whole {α : Type} (x : Except LoadFault α) : Prop := ∀ f, x = .error f → f.isLoneHalf = false

/-- In what the reading of JSON may end without a status. -/
theorem escapes_parseJson {shown text name : String}
    (hwhole : Whole (Schema.parseJson shown text)) :
    Escapes ((Schema.parseJson shown text).mapError .load) name ↔
      ∃ report, Json.read text = .error report ∧
        ((∃ digits, report.cause = .longInteger digits) ∧ name = "ValueError" ∨
          (∃ kind, report.cause = .tooDeep kind) ∧ name = "RecursionError") := by
  unfold Schema.parseJson at hwhole ⊢
  cases hread : Json.read text with
  | error report =>
      obtain ⟨cause, line, column, position⟩ := report
      rw [hread] at hwhole
      simp only [Except.mapError, escapes_error, Except.error.injEq, exists_eq_left']
      cases cause with
      | loneHalf => exact absurd (hwhole _ rfl) (by simp [LoadFault.isLoneHalf])
      | _ =>
          simp [Fault.area, areaOfLoad, LoadFault.isConfiguration, Fault.label, LoadFault.label,
            LoadFault.jsonLabel, eq_comm]
  | ok v =>
      cases hentries : v.entries? <;>
        simp [hentries, Except.mapError, Fault.area, areaOfLoad, LoadFault.isConfiguration,
          LoadFault.label]

theorem isLoneHalf_of_isConfiguration {f : LoadFault} (h : f.isConfiguration = true) :
    f.isLoneHalf = false := by
  cases f with
  | json shown report =>
      obtain ⟨cause, line, column, position⟩ := report
      cases cause with
      | loneHalf => exact nomatch h
      | _ => rfl
  | yaml shown failure =>
      cases failure with
      | loneHalf => exact nomatch h
      | _ => rfl
  | _ => rfl

theorem escapes_parseYaml {shown text name : String} :
    Escapes ((Schema.parseYaml shown text).mapError .load) name ↔
      ∃ failure, Yaml.read text = .error failure ∧ failure ≠ .malformed ∧
        LoadFault.yamlLabel failure = name := by
  have harea : ∀ failure, (Fault.load (.yaml shown failure)).area = .unexpected ↔
      failure ≠ .malformed := by
    intro failure
    rw [area_eq]
    cases failure with
    | codePoint n =>
        show areaOfLabel (if n < 0x80000000 then "ValueError" else "OverflowError") = _ ↔ _
        split <;> simp [areaOfLabel, systemLabels]
    | _ => simp [Fault.label, LoadFault.label, LoadFault.yamlLabel, areaOfLabel, systemLabels]
  unfold Schema.parseYaml
  cases Yaml.read text with
  | error failure =>
      simp only [Except.mapError, escapes_error, harea, Except.error.injEq, exists_eq_left']
      rfl
  | ok v =>
      cases hentries : v.entries? <;>
        simp [hentries, Except.mapError, Fault.area, areaOfLoad, LoadFault.isConfiguration,
          LoadFault.label]

/-- A text that is read as JSON first goes on to YAML with a fault of the document. -/
theorem escapes_parseEither {shown text name : String} :
    Escapes ((Schema.parseEither shown text).mapError .load) name ↔
      Escapes ((Schema.parseJson shown text).mapError .load) name ∨
        (∃ f, Schema.parseJson shown text = .error f ∧ f.isConfiguration = true) ∧
          Escapes ((Schema.parseYaml shown text).mapError .load) name := by
  unfold Schema.parseEither
  cases Schema.parseJson shown text with
  | ok es => simp [Except.mapError]
  | error f =>
      cases hf : f.isConfiguration with
      | false => simp [hf, Except.mapError]
      | true =>
          have harea : (Fault.load f).area ≠ .unexpected := by
            rw [area_eq]
            show areaOfLabel f.label ≠ _
            rw [show f.label = "ConfigurationError" by simpa [LoadFault.isConfiguration] using hf]
            decide
          simp [hf, Except.mapError, harea]

theorem unreadable_iff {format : Format} {shown text name : String}
    (hwhole : Whole (format.parse shown text)) :
    Escapes ((format.parse shown text).mapError .load) name ↔ Unreadable shown text format name := by
  have hjson : ∀ format : Format, format ≠ .yaml → Whole (Schema.parseJson shown text) →
      Escapes ((Schema.parseJson shown text).mapError .load) name →
      Unreadable shown text format name := by
    intro format hformat hwhole h
    obtain ⟨report, hread, ⟨⟨digits, hcause⟩, rfl⟩ | ⟨⟨kind, hcause⟩, rfl⟩⟩ :=
      (escapes_parseJson hwhole).mp h
    · exact .longInteger hformat hread hcause
    · exact .tooDeep hformat hread hcause
  cases format with
  | json =>
      refine ⟨hjson .json (by decide) hwhole, fun h => (escapes_parseJson hwhole).mpr ?_⟩
      cases h with
      | longInteger _ hread hcause => exact ⟨_, hread, .inl ⟨⟨_, hcause⟩, rfl⟩⟩
      | tooDeep _ hread hcause => exact ⟨_, hread, .inr ⟨⟨_, hcause⟩, rfl⟩⟩
      | yaml hformat => exact absurd rfl hformat
  | yaml =>
      constructor
      · intro h
        obtain ⟨failure, hread, hfailure, rfl⟩ := escapes_parseYaml.mp h
        exact .yaml (by decide) (fun h => nomatch h) hread hfailure
      · intro h
        cases h with
        | longInteger hformat => exact absurd rfl hformat
        | tooDeep hformat => exact absurd rfl hformat
        | yaml _ _ hread hfailure => exact escapes_parseYaml.mpr ⟨_, hread, hfailure, rfl⟩
  | unknown =>
      -- what JSON is not read for is a fault of the document, and YAML is tried
      have hfirst : Whole (Schema.parseJson shown text) := by
        intro f hf
        cases hconfiguration : f.isConfiguration with
        | true => exact isLoneHalf_of_isConfiguration hconfiguration
        | false =>
            refine hwhole f ?_
            show Schema.parseEither shown text = _
            unfold Schema.parseEither
            simp [hf, hconfiguration]
      refine escapes_parseEither.trans ⟨?_, fun h => ?_⟩
      · rintro (h | ⟨hfault, h⟩)
        · exact hjson .unknown (by decide) hfirst h
        · obtain ⟨failure, hread, hfailure, rfl⟩ := escapes_parseYaml.mp h
          exact .yaml (by decide) (fun _ => hfault) hread hfailure
      · cases h with
        | longInteger _ hread hcause =>
            exact .inl ((escapes_parseJson hfirst).mpr ⟨_, hread, .inl ⟨⟨_, hcause⟩, rfl⟩⟩)
        | tooDeep _ hread hcause =>
            exact .inl ((escapes_parseJson hfirst).mpr ⟨_, hread, .inr ⟨⟨_, hcause⟩, rfl⟩⟩)
        | yaml _ hfault hread hfailure =>
            exact .inr ⟨hfault rfl, escapes_parseYaml.mpr ⟨_, hread, hfailure, rfl⟩⟩

/-! ## Files -/

/-- **What makes a schema file unloadable**, and the name of the fault: it cannot be decoded, or its
    text cannot be read in its format. -/
inductive Unloadable (d : Disk) (l : Location) : String → Prop
  | encoding {bytes : List UInt8} {fault : Text.Utf8.Fault}
      (hfile : d.status l.place = .ok (.file bytes)) (hdecode : Text.Utf8.decode bytes = .error fault) :
      Unloadable d l "UnicodeDecodeError"
  | text {bytes : List UInt8} {text name : String} (hfile : d.status l.place = .ok (.file bytes))
      (hdecode : Text.Utf8.decode bytes = .ok text)
      (hread : Unreadable l.shown (String.ofList (Text.replaceBreaks ['\n'] text.toList))
        (Format.ofSuffix l.suffix) name) :
      Unloadable d l name

/-- A schema file that is there is decoded and read in its format. -/
theorem load_of_file {d : Disk} {l : Location} {bytes : List UInt8}
    (hfile : d.status l.place = .ok (.file bytes)) :
    (Schema.load d l).2 = match Text.Utf8.decode bytes with
      | .error fault => .error (.encoding fault)
      | .ok text => (Format.ofSuffix l.suffix).parse l.shown
          (String.ofList (Text.replaceBreaks ['\n'] text.toList)) := by
  have hread : d.read l.place l.shown = .ok bytes := by
    unfold Disk.read
    rw [hfile]
  have hcheck : Schema.checkFile d l = .ok () := by
    unfold Schema.checkFile Disk.status?
    rw [hfile]
    rfl
  unfold Schema.load Schema.readText?
  rw [hcheck, hread]
  simp only [Except.mapError, bind, Except.bind]
  cases Text.Utf8.decode bytes <;> rfl

/-- That it is missing or no file is expected. -/
theorem load_of_no_file {d : Disk} {l : Location}
    (hfile : ∀ bytes, d.status l.place ≠ .ok (.file bytes)) :
    ∃ f, (Schema.load d l).2 = .error f ∧ areaOfLoad f ≠ .unexpected := by
  unfold Schema.load Schema.checkFile Disk.status?
  cases hstatus : d.status l.place with
  | error e =>
      cases habsent : e.saysAbsent with
      | true =>
          exact ⟨.missing l.shown,
            by simp [habsent, Except.mapError, bind, Except.bind, throw, throwThe, MonadExceptOf.throw],
            nofun⟩
      | false =>
          exact ⟨.unreadable (.system e l.shown),
            by simp [habsent, Except.mapError, bind, Except.bind], nofun⟩
  | ok found =>
      cases found with
      | directory => exact ⟨.notFile l.shown, rfl, nofun⟩
      | link target => exact ⟨.notFile l.shown, rfl, nofun⟩
      | file bytes => exact absurd hstatus (hfile bytes)

theorem load_unloadable {d : Disk} {l : Location} (hwhole : Whole (Schema.load d l).2)
    {name : String} :
    Escapes ((Schema.load d l).2.mapError .load) name ↔ Unloadable d l name := by
  by_cases hnofile : ∀ bytes, d.status l.place ≠ .ok (.file bytes)
  · obtain ⟨f, hload, harea⟩ := load_of_no_file hnofile
    rw [hload]
    constructor
    · intro h
      exact absurd ((escapes_error _ _).mp h).1 harea
    · intro h
      cases h with
      | encoding hfile => exact absurd hfile (hnofile _)
      | text hfile => exact absurd hfile (hnofile _)
  · obtain ⟨bytes, hfile⟩ := not_forall_not.mp hnofile
    rw [load_of_file hfile] at hwhole ⊢
    cases hdecode : Text.Utf8.decode bytes with
    | error fault =>
        refine (escapes_error _ _).trans ⟨?_, fun h => ?_⟩
        · rintro ⟨-, rfl⟩
          exact .encoding hfile hdecode
        · cases h with
          | encoding => exact ⟨rfl, rfl⟩
          | text hfile' hdecode' =>
              cases hfile.symm.trans hfile'
              exact nomatch hdecode.symm.trans hdecode'
    | ok text =>
        rw [hdecode] at hwhole
        refine (unreadable_iff hwhole).trans ⟨.text hfile hdecode, fun h => ?_⟩
        cases h with
        | encoding hfile' hdecode' =>
            cases hfile.symm.trans hfile'
            exact nomatch hdecode.symm.trans hdecode'
        | text hfile' hdecode' hread =>
            cases hfile.symm.trans hfile'
            cases hdecode.symm.trans hdecode'
            exact hread

end Scaffold.Generation
