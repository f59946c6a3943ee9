import Scaffold.Proofs.Schema.Fields

/-!
# `Scaffold.Proofs.Schema.Options` — options, one by one

All options are read in the same way: each from its field, with a default. What is said of each of them
at once is said here, and two sets of options are put together option by option.

## Contents
- **Each option.** `keysApart`, `EachOption`, `ReadFrom`, `read_eq_valid_iff`.
- **Options put together.** `overlaid`, `EachOption.overlaid`, `eachOption_standard`,
  `overlaid_overlaid`, `overlaid_overlaid_right`.
-/

namespace Scaffold.Schema.Options

open Naming (CaseStyle)

variable {names : List String}

/-! ## Each option -/

/-- No two options share a spelling. -/
theorem keysApart : KeysApart keys := by decide +kernel

/-- Something holds of each option: of its field, how that is read, its default, and its value. -/
structure EachOption (platform : String)
    (P : ∀ {α : Type}, Key → (Value → Checked α) → α → α → Prop) (o : Options) : Prop where
  resultsPath : P ⟨"resultsPath", "results_path"⟩ readName (standard platform).resultsPath
    o.resultsPath
  flat : P ⟨"noConfigs", "no_configs"⟩ readBool (standard platform).flat o.flat
  indexFile : P ⟨"indexFile", "index_file"⟩ readBool (standard platform).indexFile o.indexFile
  fileCase : P ⟨"convertCaseFile", "convert_case_file"⟩
    (readStyle CaseStyle.forFiles "convertCaseFile") (standard platform).fileCase o.fileCase
  entityCase : P ⟨"convertCaseEntity", "convert_case_entity"⟩
    (readStyle CaseStyle.forEntities "convertCaseEntity") (standard platform).entityCase o.entityCase
  propertyCase : P ⟨"convertCaseProperty", "convert_case_property"⟩
    (readStyle CaseStyle.forProperties "convertCaseProperty") (standard platform).propertyCase
    o.propertyCase
  eol : P ⟨"convertEol", "convert_eol"⟩ readChoice (standard platform).eol o.eol
  lazy : P (.single "lazy") readBool (standard platform).lazy o.lazy
  visibility : P ⟨"propertyVisibility", "property_visibility"⟩ readChoice
    (standard platform).visibility o.visibility
  exportForm : P ⟨"exportType", "export_type"⟩ readChoice (standard platform).exportForm o.exportForm
  strictness : P ⟨"strictMode", "strict_mode"⟩ readChoice (standard platform).strictness o.strictness
  formatter : P (.single "formatter") readChoice (standard platform).formatter o.formatter
  timeout : P ⟨"formatterTimeout", "formatter_timeout"⟩ readPositive (standard platform).timeout
    o.timeout
  extension : P (.single "extension") readExtension (standard platform).extension o.extension

/-- Each option is what its field says, or what stands on the platform. -/
def ReadFrom (platform : String) (es : Entries) : Options → Prop :=
  EachOption platform fun k read d a => readField es k read (some d) = .valid a

/-- **Options are read exactly if every key is used and each option is read from its field.** -/
theorem read_eq_valid_iff {platform : String} {v : Value} {o : Options} :
    Options.read platform v = .valid o ↔
      ∃ es, v.entries? = some es ∧ AllUsed keys es ∧ ReadFrom platform es o := by
  unfold Options.read
  rw [readRecord_eq_valid_iff]
  refine exists_congr fun es => and_congr_right fun _ => and_congr_right fun _ => ?_
  constructor
  · intro h
    simp only [Checked.seq_eq_valid, Checked.map_eq_valid] at h
    -- the fields stand nested, the last one outermost
    obtain ⟨_, _, ⟨_, _, ⟨_, _, ⟨_, _, ⟨_, _, ⟨_, _, ⟨_, _, ⟨_, _, ⟨_, _, ⟨_, _, ⟨_, _, ⟨_, _, ⟨_, _,
      ⟨_, hresults, rfl⟩, hflat, rfl⟩, hindex, rfl⟩, hfile, rfl⟩, hentity, rfl⟩, hproperty, rfl⟩,
      heol, rfl⟩, hlazy, rfl⟩, hvisibility, rfl⟩, hexport, rfl⟩, hstrict, rfl⟩, hformatter, rfl⟩,
      htimeout, rfl⟩, hextension, rfl⟩ := h
    exact ⟨hresults, hflat, hindex, hfile, hentity, hproperty, heol, hlazy, hvisibility, hexport,
      hstrict, hformatter, htimeout, hextension⟩
  · intro h
    rw [h.resultsPath, h.flat, h.indexFile, h.fileCase, h.entityCase, h.propertyCase, h.eol, h.lazy,
      h.visibility, h.exportForm, h.strictness, h.formatter, h.timeout, h.extension]
    rfl

/-! ## Options put together -/

/-- Some options as they stand on one side, the others as on another. -/
def overlaid (names : List String) (a b : Options) : Options where
  resultsPath := if "results_path" ∈ names then a.resultsPath else b.resultsPath
  flat := if "no_configs" ∈ names then a.flat else b.flat
  indexFile := if "index_file" ∈ names then a.indexFile else b.indexFile
  fileCase := if "convert_case_file" ∈ names then a.fileCase else b.fileCase
  entityCase := if "convert_case_entity" ∈ names then a.entityCase else b.entityCase
  propertyCase := if "convert_case_property" ∈ names then a.propertyCase else b.propertyCase
  eol := if "convert_eol" ∈ names then a.eol else b.eol
  lazy := if "lazy" ∈ names then a.lazy else b.lazy
  visibility := if "property_visibility" ∈ names then a.visibility else b.visibility
  exportForm := if "export_type" ∈ names then a.exportForm else b.exportForm
  strictness := if "strict_mode" ∈ names then a.strictness else b.strictness
  formatter := if "formatter" ∈ names then a.formatter else b.formatter
  timeout := if "formatter_timeout" ∈ names then a.timeout else b.timeout
  extension := if "extension" ∈ names then a.extension else b.extension

/-- What holds of each option on either side gives what holds of each once they are put together. -/
theorem EachOption.overlaid {platform : String}
    {P Q R : ∀ {α : Type}, Key → (Value → Checked α) → α → α → Prop} {a b : Options}
    (ha : EachOption platform P a) (hb : EachOption platform Q b)
    (h : ∀ {α : Type} {k : Key} {read : Value → Checked α} {d x y : α}, k ∈ keys → P k read d x →
      Q k read d y → R k read d (if k.snake ∈ names then x else y)) :
    EachOption platform R (overlaid names a b) where
  resultsPath := h (by decide) ha.resultsPath hb.resultsPath
  flat := h (by decide) ha.flat hb.flat
  indexFile := h (by decide) ha.indexFile hb.indexFile
  fileCase := h (by decide) ha.fileCase hb.fileCase
  entityCase := h (by decide) ha.entityCase hb.entityCase
  propertyCase := h (by decide) ha.propertyCase hb.propertyCase
  eol := h (by decide) ha.eol hb.eol
  lazy := h (by decide) ha.lazy hb.lazy
  visibility := h (by decide) ha.visibility hb.visibility
  exportForm := h (by decide) ha.exportForm hb.exportForm
  strictness := h (by decide) ha.strictness hb.strictness
  formatter := h (by decide) ha.formatter hb.formatter
  timeout := h (by decide) ha.timeout hb.timeout
  extension := h (by decide) ha.extension hb.extension

/-- The options on a platform are the defaults. -/
theorem eachOption_standard (platform : String) :
    EachOption platform (fun _ _ d a => a = d) (standard platform) :=
  ⟨rfl, rfl, rfl, rfl, rfl, rfl, rfl, rfl, rfl, rfl, rfl, rfl, rfl, rfl⟩

/-- Each option is on one of the two sides. -/
theorem overlaid_overlaid (names : List String) (d m : Options) :
    overlaid names (overlaid names m d) (overlaid names d m) = m := by
  have hpick : ∀ {α : Type} (c : Prop) [Decidable c] (x y : α),
      (if c then (if c then x else y) else if c then y else x) = x := by
    intro α c _ x y
    split <;> rfl
  unfold overlaid
  simp only [hpick]

/-- What is put over options that have something put over them already takes its place. -/
theorem overlaid_overlaid_right (names : List String) (a d o : Options) :
    overlaid names a (overlaid names d o) = overlaid names a o := by
  have hpick : ∀ {α : Type} (c : Prop) [Decidable c] (x y z : α),
      (if c then x else if c then y else z) = if c then x else z := by
    intro α c _ x y z
    split <;> rfl
  unfold overlaid
  simp only [hpick]

end Scaffold.Schema.Options
