import Scaffold.Proofs.Generation.Writes
import Scaffold.Proofs.Json.Writer
import Scaffold.Proofs.Schema.Conventions

/-!
# `Scaffold.Proofs.Generation.Guarding` — faults that leave no trace

A run is prepared before anything is written, and all that can be wrong with a configuration comes out
then. So a fault of the configuration leaves the disk as it was, and no run that has begun ends with one
(`generation_guarded`).

## Contents
- **Faults.** `label_stop_ne`, `label_run_ne`, `prepare_of_not_legal`.
- **Schema files.** `Given`, `Given.unique`, `ConventionalDocument`, `generateFile_cases`.
- **The theorem.** `Guarded`, `guarded_generate`, `guarded_generateFile`, `generation_guarded`.
-/

namespace Scaffold.Generation

open Schema (Conventional Entity Location Settings)

/-! ## Faults -/

theorem label_errno_ne (e : Disk.Errno) : e.label ≠ "ConfigurationError" := by
  cases e <;> decide

theorem label_failure_ne (f : Disk.Failure) : f.label ≠ "ConfigurationError" := by
  cases f with
  | system e path => exact label_errno_ne e
  | nullByte => exact (by decide : "ValueError" ≠ "ConfigurationError")
  | linkLoop path => exact (by decide : "RuntimeError" ≠ "ConfigurationError")

/-- Nothing that ends a run early is a fault of the configuration. -/
theorem label_stop_ne (s : Stop) : s.label ≠ "ConfigurationError" := by
  cases s with
  | directories f => exact label_failure_ne f
  | render fault =>
      cases fault with
      | undefined name => exact (by decide : "UndefinedError" ≠ "ConfigurationError")
      | noEntry name => exact (by decide : "UndefinedError" ≠ "ConfigurationError")
      | noLineEnding kind => exact (by decide : "AttributeError" ≠ "ConfigurationError")
      | unwritable cause =>
          show cause.label ≠ "ConfigurationError"
          rcases cause.label_cases with h | h | h <;> rw [h] <;> decide
  | write fault =>
      cases fault with
      | disk f => exact label_failure_ne f
      | outside target root => exact (by decide : "ValueError" ≠ "ConfigurationError")

/-- A job that runs ends early only for such reasons. -/
theorem exists_stop_of_run {j : Job} {formatter : Formatter} {d : Disk} {f : Fault}
    (h : (j.run formatter d).result = .error f) : ∃ s, f = .stopped s := by
  obtain ⟨failure, -, hrun⟩ | ⟨made, -, ⟨stop, -, hrun⟩ | ⟨-, hrun⟩⟩ := j.run_eq formatter d
  · rw [hrun] at h
    exact ⟨_, (Except.error.inj h).symm⟩
  · rw [hrun] at h
    exact ⟨_, (Except.error.inj h).symm⟩
  · rw [hrun] at h
    exact nomatch h

/-- **No run that has begun ends with a fault of the configuration.** -/
theorem label_run_ne {j : Job} {formatter : Formatter} {d : Disk} {f : Fault}
    (h : (j.run formatter d).result = .error f) : f.label ≠ "ConfigurationError" := by
  obtain ⟨s, rfl⟩ := exists_stop_of_run h
  exact label_stop_ne s

/-- A request that is not legal is refused when the run is prepared, and an illegal style as a fault of
    the configuration, if it can be shown in the complaint. -/
theorem prepare_of_not_legal (w : Workspace) (es : List Entity) {s : Settings}
    (h : ¬ s.naming.Legal) : ∃ f, prepare w es s = .error f ∧
      (¬ s.naming.Styled → s.naming.Shown → f.label = "ConfigurationError") := by
  unfold prepare
  rcases Naming.Policy.ofRequest_cases s.naming with
    ⟨_, -, hlegal⟩ | ⟨c, hc, -, hcause⟩ | ⟨c, hc, hstyled, -⟩
  · exact absurd hlegal h
  · refine ⟨.policy (.style c), by rw [hc]; rfl, fun _ hshown => ?_⟩
    show c.cause?.elim "ConfigurationError" Json.Unwritable.label = _
    rw [hcause hshown]
    rfl
  · exact ⟨.policy (.choice c), by rw [hc]; rfl, fun hnot => absurd hstyled hnot⟩

/-! ## Schema files -/

/-- The document that a run over a schema file reads: that of the file, with options put over its
    own. -/
def Given (w : Workspace) (l : Location) (given : List (String × Value)) (doc : Entries) : Prop :=
  ∃ own, (Schema.load w.disk l).2 = .ok own ∧ overrideOptions own given = .ok doc

/-- It is one document. -/
theorem Given.unique {w : Workspace} {l : Location} {given : List (String × Value)}
    {doc doc' : Entries} (h : Given w l given doc) (h' : Given w l given doc') : doc' = doc := by
  obtain ⟨own, hown, hover⟩ := h
  obtain ⟨own', hown', hover'⟩ := h'
  cases hown.symm.trans hown'
  cases hover.symm.trans hover'
  rfl

/-- What the options of a document say about conventions is legal. -/
def ConventionalDocument (doc : Entries) : Prop :=
  ∀ options es, (Schema.optionsOf doc).2 = .ok options → options.entries? = some es →
    Conventional es

/-- A run over a schema file fails before it begins, or it is a run over the entities and the options
    that the document gives. -/
theorem generateFile_cases (w : Workspace) (formatter : Option Formatter) (l : Location)
    (given : List (String × Value)) :
    (∃ log f, generateFile w formatter l given = ⟨w.disk, log, .error f⟩) ∨
      ∃ doc es o, Given w l given doc ∧
        (Schema.readDocument w.platform doc).result = .ok (es, o) ∧
        (generateFile w formatter l given).disk = (generate w formatter es o.settings).disk ∧
        ∀ f, (generateFile w formatter l given).result = .error f ↔
          (generate w formatter es o.settings).result = .error f := by
  unfold generateFile
  cases hload : Schema.load w.disk l with
  | mk log loaded =>
      cases loaded with
      | error f => exact .inl ⟨log, _, rfl⟩
      | ok own =>
          simp only
          cases hover : overrideOptions own given with
          | error f => exact .inl ⟨log, _, rfl⟩
          | ok doc =>
              simp only
              cases hread : (Schema.readDocument w.platform doc).result with
              | error f => exact .inl ⟨_, _, rfl⟩
              | ok pair =>
                  obtain ⟨es, o⟩ := pair
                  refine .inr ⟨doc, es, o, ⟨own, by rw [hload], hover⟩, hread, rfl, fun f => ?_⟩
                  -- a report is only added to
                  simp only
                  cases (generate w formatter es o.settings).result <;> simp [Except.map]

/-! ## The theorem -/

/-- **An outcome in which faults of the configuration leave no trace**, nor do conventions that are not
    legal, with which nothing is generated. -/
structure Guarded (d : Disk) (legal : Prop) (o : Outcome Report) : Prop where
  configuration : ∀ f, o.result = .error f → f.label = "ConfigurationError" → o.disk = d
  conventions : ¬ legal → (∃ f, o.result = .error f) ∧ o.disk = d

theorem guarded_generate (w : Workspace) (formatter : Option Formatter) (es : List Entity)
    (s : Settings) : Guarded w.disk s.naming.Legal (generate w formatter es s) := by
  constructor
  · intro f hf hlabel
    cases hprepare : prepare w es s with
    | error fault => rw [generate_of_fault hprepare]
    | ok j =>
        rw [generate_of_prepare hprepare] at hf
        exact absurd hlabel (label_run_ne hf)
  · intro hlegal
    obtain ⟨f, hf, -⟩ := prepare_of_not_legal w es hlegal
    rw [generate_of_fault hf]
    exact ⟨⟨f, rfl⟩, rfl⟩

theorem guarded_generateFile (w : Workspace) (formatter : Option Formatter) (l : Location)
    (given : List (String × Value)) :
    Guarded w.disk (∀ doc, Given w l given doc → ConventionalDocument doc)
      (generateFile w formatter l given) := by
  rcases generateFile_cases w formatter l given with
    ⟨log, f, h⟩ | ⟨doc, es, o, hgiven, hread, hdisk, hfault⟩
  · rw [h]
    exact ⟨fun _ _ _ => rfl, fun _ => ⟨⟨f, rfl⟩, rfl⟩⟩
  · have hguarded := guarded_generate w formatter es o.settings
    constructor
    · intro f hf hlabel
      rw [hdisk]
      exact hguarded.configuration f ((hfault f).mp hf) hlabel
    · intro hillegal
      -- the options of a document that was read are legal
      exfalso
      apply hillegal
      intro doc' hgiven' options entries hoptions hentries
      obtain rfl := hgiven.unique hgiven'
      obtain ⟨_, _, _, options', -, -, hoptions', -, -, hvalid⟩ := Schema.readDocument_eq_ok.mp hread
      cases hoptions.symm.trans hoptions'
      obtain ⟨entries', hentries', hconventional⟩ := Schema.conventional_of_read hvalid
      cases hentries.symm.trans hentries'
      exact hconventional

/-- **Faults of the configuration leave no trace.** Whoever generates, from entities or from a schema
    file, leaves the disk as it was when the configuration is at fault or its conventions are not legal;
    and no run that has begun to make directories ends with such a fault. A style that is not legal is one,
    unless it cannot be shown in the complaint. -/
theorem generation_guarded :
    (∀ w formatter es s, Guarded w.disk s.naming.Legal (generate w formatter es s) ∧
      (¬ s.naming.Styled → ∃ f, (generate w formatter es s).result = .error f ∧
        (s.naming.Shown → f.label = "ConfigurationError"))) ∧
    (∀ w formatter l given,
      Guarded w.disk (∀ doc, Given w l given doc → ConventionalDocument doc)
        (generateFile w formatter l given)) ∧
    ∀ (j : Job) formatter d f, (j.run formatter d).result = .error f →
      f.label ≠ "ConfigurationError" := by
  refine ⟨fun w formatter es s => ⟨guarded_generate w formatter es s, fun hstyled => ?_⟩,
    guarded_generateFile, fun j formatter d f => label_run_ne⟩
  obtain ⟨f, hf, hlabel⟩ := prepare_of_not_legal w es
    fun hlegal : s.naming.Legal => hstyled hlegal.toStyled
  refine ⟨f, ?_, hlabel hstyled⟩
  unfold generate
  rw [hf]

end Scaffold.Generation
