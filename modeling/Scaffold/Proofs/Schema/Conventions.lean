import Scaffold.Proofs.Naming.Requests
import Scaffold.Proofs.Schema.Accepted

/-!
# `Scaffold.Proofs.Schema.Conventions` — conventions that options may ask for

Options may say under two spellings how names are written and classes declared. They are read only if
whatever they say there is legal (`conventional_of_read`).

## Contents
- **Fields.** `Says`, `says_of_readField`.
- **Conventions.** `Spells`, `Conventional`, `conventional_of_read`.
-/

namespace Scaffold.Schema

open Naming (CaseStyle ExportForm Names Strictness Visibility)

/-! ## Fields -/

/-- What a mapping says in a field, if anything, is such a value. -/
def Says (es : Entries) (k : Key) (P : Value → Prop) : Prop :=
  ∀ spelling v, k.find? es = some (spelling, v) → P v

/-- A field that was read says what can be read. -/
theorem says_of_readField {α : Type} {P : Value → Prop} {es : Entries} {k : Key}
    {read : Value → Checked α} {default : Option α} {a : α}
    (h : readField es k read default = .valid a) (hP : ∀ v b, read v = .valid b → P v) :
    Says es k P := by
  intro spelling v hk
  unfold readField at h
  rw [hk] at h
  exact hP v a (within_eq_valid.mp h)

/-! ## Conventions -/

/-- The value is the name of one of some alternatives, as a text or as bytes. -/
def Spells {α : Type} [Choice α] (v : Value) (allowed : List α) : Prop :=
  ∃ a ∈ allowed, spelled? v = some (some (Choice.name a))

/-- What a mapping says about conventions is legal: every style at its place, and every alternative is
    one of its set. -/
structure Conventional (es : Entries) : Prop where
  fileCase : Says es ⟨"convertCaseFile", "convert_case_file"⟩ (Names · CaseStyle.forFiles)
  entityCase : Says es ⟨"convertCaseEntity", "convert_case_entity"⟩ (Names · CaseStyle.forEntities)
  propertyCase : Says es ⟨"convertCaseProperty", "convert_case_property"⟩
    (Names · CaseStyle.forProperties)
  visibility : Says es ⟨"propertyVisibility", "property_visibility"⟩
    (Spells · (Choice.all : List Visibility))
  exportForm : Says es ⟨"exportType", "export_type"⟩ (Spells · (Choice.all : List ExportForm))
  strictness : Says es ⟨"strictMode", "strict_mode"⟩ (Spells · (Choice.all : List Strictness))

theorem names_of_readStyle {legal : List CaseStyle} {place : String} {v : Value} {s : CaseStyle}
    (h : Options.readStyle legal place v = .valid s) : Names v legal := by
  obtain ⟨hv, hlegal⟩ := readStyle_eq_valid.mp h
  exact ⟨_, hlegal, Naming.names_of_ofValue? hv⟩

theorem spells_of_readChoice {α : Type} [Choice α] {v : Value} {a : α}
    (h : readChoice v = .valid a) : Spells v (Choice.all : List α) := by
  unfold readChoice at h
  split at h
  · rename_i b hb
    obtain ⟨name, hspelled, hname⟩ := Option.bind_eq_some_iff.mp hb
    obtain ⟨s, rfl, hfind⟩ := Option.bind_eq_some_iff.mp hname
    have heq := List.find?_some hfind
    exact ⟨b, List.mem_of_find?_eq_some hfind, by rw [hspelled, eq_of_beq heq]⟩
  · exact absurd h (by simp [Checked.fault])

/-- **Options that were read say nothing illegal about conventions.** -/
theorem conventional_of_read {platform : String} {v : Value} {o : Options}
    (h : Options.read platform v = .valid o) : ∃ es, v.entries? = some es ∧ Conventional es := by
  obtain ⟨es, hes, hbody⟩ := readRecord_eq_valid h
  simp only [Checked.seq_eq_valid, Checked.map_eq_valid] at hbody
  -- the fields stand nested, the last one outermost
  obtain ⟨_, _, ⟨_, _, ⟨_, _, ⟨_, _, ⟨_, _, ⟨_, _, ⟨_, _, ⟨_, _, ⟨_, _, ⟨_, _, ⟨_, _, -, hfile, -⟩,
    hentity, -⟩, hproperty, -⟩, -, -⟩, -, -⟩, hvisibility, -⟩, hexport, -⟩, hstrict, -⟩, -, -⟩, -,
    -⟩, -, -⟩ := hbody
  refine ⟨es, hes, ?_⟩
  constructor
  · exact says_of_readField hfile fun _ _ => names_of_readStyle
  · exact says_of_readField hentity fun _ _ => names_of_readStyle
  · exact says_of_readField hproperty fun _ _ => names_of_readStyle
  · exact says_of_readField hvisibility fun _ _ => spells_of_readChoice
  · exact says_of_readField hexport fun _ _ => spells_of_readChoice
  · exact says_of_readField hstrict fun _ _ => spells_of_readChoice

end Scaffold.Schema
