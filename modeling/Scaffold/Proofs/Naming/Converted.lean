import Scaffold.Naming.Policy
import Scaffold.Proofs.Naming.Spelled

/-!
# `Scaffold.Proofs.Naming.Converted` — the characters of converted names

Every style but the one that leaves a name as it is gives letters and digits of ASCII, with at most
one kind of mark between the words (`isNameChar_of_mem_convertChars`). So a converted name can stand
in an import statement, whatever the name was (`convert_importable`).

## Contents
- **Characters.** `isNameChar`, `isNameChar_of_mem_first`, `isNameChar_of_mem_further`,
  `isNameChar_of_mem_convertChars`, `forall_mem_convert`.
- **Importable names.** `Quotable`, `Importable`, `convert_importable`.
-/

namespace Scaffold.Naming

open Text

/-! ## Characters -/

/-- The characters that converted names consist of. -/
def isNameChar (c : Char) : Bool := isAlnum c || c = '_' || c = '-'

theorem isNameChar_of_isAlnum {c : Char} (h : isAlnum c = true) : isNameChar c = true := by
  simp [isNameChar, h]

section Spelled

variable {w : List Char}

theorem isNameChar_of_mem_lowered (hw : IsWord w) : ∀ c ∈ lowered w, isNameChar c = true :=
  fun c hc => isNameChar_of_isAlnum (isAlnum_of_isSmall (hw.lowered c hc))

theorem isNameChar_of_mem_capitalized (hw : IsWord w) (leading : Bool) :
    ∀ c ∈ capitalized leading w, isNameChar c = true := by
  obtain ⟨d, r, rfl, hd, hr⟩ := hw.exists_cons
  have hrest : ∀ c ∈ lowered r, isNameChar c = true := fun c hc =>
    isNameChar_of_isAlnum (isAlnum_of_isSmall (hr c hc))
  rw [capitalized]
  split
  · exact List.forall_mem_cons.mpr
      ⟨rfl, List.forall_mem_cons.mpr ⟨isNameChar_of_isAlnum hd, hrest⟩⟩
  · exact List.forall_mem_cons.mpr ⟨isNameChar_of_isAlnum (isAlnum_upperChar hd), hrest⟩

theorem isNameChar_of_mem_first {s : CaseStyle} (hs : s ≠ .verbatim) (hw : IsWord w) :
    ∀ c ∈ s.first w, isNameChar c = true := by
  cases s with
  | verbatim => exact absurd rfl hs
  | pascal => exact isNameChar_of_mem_capitalized hw true
  | camel => exact isNameChar_of_mem_lowered hw
  | param => exact isNameChar_of_mem_lowered hw
  | snake => exact isNameChar_of_mem_lowered hw

theorem isNameChar_of_mem_further {s : CaseStyle} (hs : s ≠ .verbatim) (hw : IsWord w) :
    ∀ c ∈ s.further w, isNameChar c = true := by
  cases s with
  | verbatim => exact absurd rfl hs
  | pascal => exact isNameChar_of_mem_capitalized hw false
  | camel => exact isNameChar_of_mem_capitalized hw false
  | param => exact List.forall_mem_cons.mpr ⟨rfl, isNameChar_of_mem_lowered hw⟩
  | snake => exact List.forall_mem_cons.mpr ⟨rfl, isNameChar_of_mem_lowered hw⟩

end Spelled

/-- **Every style but the verbatim one gives letters, digits and marks.** -/
theorem isNameChar_of_mem_convertChars {s : CaseStyle} (hs : s ≠ .verbatim) (cs : List Char) :
    ∀ c ∈ s.convertChars cs, isNameChar c = true := by
  -- all styles put together words of letters and digits
  have hwords : ∀ w ∈ words cs, IsWord w := fun _ => isWord_of_mem_words
  intro c hc
  rw [convertChars_eq hs] at hc
  obtain ⟨p, hp, hc⟩ := List.mem_flatten.mp hc
  cases hcs : words cs with
  | nil =>
      rw [hcs] at hp
      exact absurd hp List.not_mem_nil
  | cons w ws =>
      rw [hcs] at hp hwords
      obtain ⟨hw, hws⟩ := List.forall_mem_cons.mp hwords
      rcases List.mem_cons.mp hp with rfl | hp
      · exact isNameChar_of_mem_first hs hw c hc
      · obtain ⟨v, hv, rfl⟩ := List.mem_map.mp hp
        exact isNameChar_of_mem_further hs (hws v hv) c hc

/-- **What all letters, digits and marks are, the characters of a converted name are**, unless it was left
    as it is and its own were not before. -/
theorem forall_mem_convert {s : CaseStyle} {name : String} {P : Char → Prop}
    (hchar : ∀ c, isNameChar c = true → P c) (h : s = .verbatim → ∀ c ∈ name.toList, P c) :
    ∀ c ∈ (s.convert name).toList, P c := by
  intro c hc
  rw [CaseStyle.convert, String.toList_ofList] at hc
  by_cases hs : s = .verbatim
  · subst hs
    exact h rfl c hc
  · exact hchar c (isNameChar_of_mem_convertChars hs _ c hc)

theorem not_mem_of_isNameChar {marks : List Char} (hmarks : marks.any isNameChar = false) {c : Char}
    (h : isNameChar c = true) : c ∉ marks := by
  intro hc
  rw [List.any_eq_true.mpr ⟨c, hc, h⟩] at hmarks
  exact absurd hmarks (by decide)

/-! ## Importable names -/

/-- Quotes, braces and line breaks. -/
def quoteMarks : List Char := ['\x22', '\x27', '\x7b', '\x7d', '\n', '\r']

/-- Slashes, quotes, braces and line breaks. -/
def importMarks : List Char := '/' :: quoteMarks

/-- A text that can stand in a statement as it is, within quotes or without. -/
def Quotable (s : String) : Prop := ∀ c ∈ s.toList, c ∉ quoteMarks

/-- A name that can stand in an import statement as it is. -/
def Importable (name : String) : Prop := ∀ c ∈ name.toList, c ∉ importMarks

instance (s : String) : Decidable (Quotable s) :=
  List.decidableBAll (fun c => c ∉ quoteMarks) s.toList

instance (name : String) : Decidable (Importable name) :=
  List.decidableBAll (fun c => c ∉ importMarks) name.toList

theorem Importable.quotable {name : String} (h : Importable name) : Quotable name :=
  fun c hc hm => h c hc (List.mem_cons_of_mem _ hm)

theorem Importable.slashless {name : String} (h : Importable name) : '/' ∉ name.toList :=
  fun hc => h _ hc List.mem_cons_self

theorem Quotable.append {a b : String} (ha : Quotable a) (hb : Quotable b) : Quotable (a ++ b) := by
  intro c hc
  rw [String.toList_append] at hc
  rcases List.mem_append.mp hc with h | h
  · exact ha c h
  · exact hb c h

theorem Importable.append {a b : String} (ha : Importable a) (hb : Importable b) :
    Importable (a ++ b) := by
  intro c hc
  rw [String.toList_append] at hc
  rcases List.mem_append.mp hc with h | h
  · exact ha c h
  · exact hb c h

/-- **A converted name can stand in an import statement**, unless it was left as it is and could not
    before. -/
theorem convert_importable {s : CaseStyle} {name : String} (h : s = .verbatim → Importable name) :
    Importable (s.convert name) :=
  forall_mem_convert (fun _ hc => not_mem_of_isNameChar (by decide) hc) h

end Scaffold.Naming
