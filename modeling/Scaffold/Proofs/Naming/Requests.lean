import Scaffold.Naming.Policy

/-!
# `Scaffold.Proofs.Naming.Requests` — which requests give a policy

A request holds values that may be anything. It gives a policy exactly if each of them is the name of
an alternative that is legal at its place, and a style that is not legal is complained of before
anything else is (`ofRequest_cases`). The complaint shows the value, if it can be shown.

## Contents
- **Names.** `Names`, `names_of_ofValue?`, `ofValue?_name`.
- **Parts.** `readLegal_cases`, `readChoice_cases`.
- **Requests.** `Request.Styled`, `Request.Legal`, `Request.Shown`, `ofRequest_cases`.
-/

namespace Scaffold.Naming

section Choice

variable {α : Type} [Choice α]

/-! ## Names -/

/-- The value is the name of one of some alternatives. -/
def Names (v : Value) (allowed : List α) : Prop := ∃ a ∈ allowed, v = .text (Choice.name a)

theorem names_of_ofValue? {v : Value} {a : α} (h : Choice.ofValue? v = some a) :
    v = .text (Choice.name a) := by
  unfold Choice.ofValue? at h
  split at h
  · rename_i s
    have hname := List.find?_some h
    rw [eq_of_beq hname]
  · exact absurd h (by simp)

/-- Alternatives that are told apart by their names are read back from them. -/
theorem ofValue?_name (hinj : Function.Injective (Choice.name : α → String)) {a : α}
    (ha : a ∈ (Choice.all : List α)) : Choice.ofValue? (.text (Choice.name a)) = some a := by
  show (Choice.all : List α).find? (fun b => Choice.name b == Choice.name a) = some a
  cases hfind : (Choice.all : List α).find? fun b => Choice.name b == Choice.name a with
  | none =>
      have hnot := List.find?_eq_none.mp hfind a ha
      exact absurd (beq_self_eq_true _) hnot
  | some b =>
      have hname := List.find?_some hfind
      rw [hinj (eq_of_beq hname)]

/-! ## Parts -/

/-- A value is read as an alternative exactly if it names one. -/
theorem readChoice_cases (hinj : Function.Injective (Choice.name : α → String)) (v : Value) :
    (∃ a : α, readChoice v = .ok a ∧ Names v (Choice.all : List α)) ∨
      ∃ c, (readChoice v : Except PolicyFault α) = .error (.choice c) ∧
        ¬ Names v (Choice.all : List α) := by
  unfold readChoice Choice.read
  cases hv : (Choice.ofValue? v : Option α) with
  | some a =>
      refine .inl ⟨a, rfl, a, ?_, names_of_ofValue? hv⟩
      rw [names_of_ofValue? hv] at hv
      exact List.mem_of_find?_eq_some hv
  | none =>
      refine .inr ⟨_, rfl, ?_⟩
      rintro ⟨a, ha, rfl⟩
      exact nomatch hv.symm.trans (ofValue?_name hinj ha)

end Choice

theorem name_injective : Function.Injective (Choice.name : CaseStyle → String) := by
  intro a b h
  cases a <;> cases b <;> first | rfl | exact absurd h (by decide)

/-- A value is read as a legal style exactly if it names one. Nothing keeps it from being complained of
    if it can be shown. -/
theorem readLegal_cases (v : Value) (styles : List CaseStyle) (place : String) :
    (∃ s, readLegal v styles place = .ok s ∧ Names v styles) ∨
      ∃ c, readLegal v styles place = .error (.style c) ∧ ¬ Names v styles ∧
        (v.unshowable? = none → c.cause? = none) := by
  unfold readLegal CaseStyle.read
  cases hv : (Choice.ofValue? v : Option CaseStyle) with
  | none =>
      refine .inr ⟨_, rfl, ?_, id⟩
      rintro ⟨s, -, rfl⟩
      have hs : s ∈ (Choice.all : List CaseStyle) := by cases s <;> decide
      exact nomatch hv.symm.trans (ofValue?_name name_injective hs)
  | some s =>
      have hname := names_of_ofValue? hv
      by_cases hs : s ∈ styles
      · simp only [List.contains_iff_mem.mpr hs, if_true, dif_pos hs]
        exact .inl ⟨_, rfl, s, hs, hname⟩
      · refine .inr ⟨.unsupported s place styles, ?_, ?_, fun _ => rfl⟩
        · simp [hs]
        · rintro ⟨t, ht, hvt⟩
          -- a value names one style only
          rw [hname, Value.text.injEq] at hvt
          exact hs (name_injective hvt ▸ ht)

namespace Policy

/-! ## Requests -/

/-- Every style of a request is legal at its place. -/
structure Request.Styled (q : Request) : Prop where
  entityCase : Names q.entityCase CaseStyle.forEntities
  fileCase : Names q.fileCase CaseStyle.forFiles
  propertyCase : Names q.propertyCase CaseStyle.forProperties

/-- Every part of a request is legal at its place. -/
structure Request.Legal (q : Request) : Prop extends q.Styled where
  visibility : Names q.visibility (Choice.all : List Visibility)
  exportForm : Names q.exportForm (Choice.all : List ExportForm)
  strictness : Names q.strictness (Choice.all : List Strictness)

/-- Whatever a request says of styles can be shown. -/
structure Request.Shown (q : Request) : Prop where
  entityCase : q.entityCase.unshowable? = none
  fileCase : q.fileCase.unshowable? = none
  propertyCase : q.propertyCase.unshowable? = none

/-- **A request gives a policy exactly if it is legal**, and styles are complained of first. -/
theorem ofRequest_cases (q : Request) :
    (∃ p, ofRequest q = .ok p ∧ q.Legal) ∨
      (∃ c, ofRequest q = .error (.style c) ∧ ¬ q.Styled ∧ (q.Shown → c.cause? = none)) ∨
      ∃ c, ofRequest q = .error (.choice c) ∧ q.Styled ∧ ¬ q.Legal := by
  unfold ofRequest
  -- the parts are read one after another, and the first one that is not legal decides
  rcases readLegal_cases q.entityCase CaseStyle.forEntities "entity names" with
    ⟨e, he, hentity⟩ | ⟨c, he, hentity, hcause⟩
  case inr =>
    exact .inr (.inl ⟨c, by rw [he]; rfl, fun h => hentity h.entityCase, fun h => hcause h.entityCase⟩)
  rcases readLegal_cases q.fileCase CaseStyle.forFiles "file names" with
    ⟨f, hf, hfile⟩ | ⟨c, hf, hfile, hcause⟩
  case inr =>
    exact .inr (.inl ⟨c, by rw [he, hf]; rfl, fun h => hfile h.fileCase, fun h => hcause h.fileCase⟩)
  rcases readLegal_cases q.propertyCase CaseStyle.forProperties "property names" with
    ⟨p, hp, hproperty⟩ | ⟨c, hp, hproperty, hcause⟩
  case inr =>
    exact .inr (.inl ⟨c, by rw [he, hf, hp]; rfl, fun h => hproperty h.propertyCase,
      fun h => hcause h.propertyCase⟩)
  have hstyled : q.Styled := ⟨hentity, hfile, hproperty⟩
  have hinj : Function.Injective (Choice.name : Visibility → String) ∧
      Function.Injective (Choice.name : ExportForm → String) ∧
      Function.Injective (Choice.name : Strictness → String) := by
    refine ⟨?_, ?_, ?_⟩ <;> intro a b h <;> cases a <;> cases b <;>
      first | rfl | exact absurd h (by decide)
  rcases readChoice_cases hinj.1 q.visibility with ⟨v, hv, hvisibility⟩ | ⟨c, hv, hvisibility⟩
  case inr =>
    exact .inr (.inr ⟨c, by rw [he, hf, hp, hv]; rfl, hstyled, fun h => hvisibility h.visibility⟩)
  rcases readChoice_cases hinj.2.1 q.exportForm with ⟨x, hx, hexport⟩ | ⟨c, hx, hexport⟩
  case inr =>
    exact .inr (.inr ⟨c, by rw [he, hf, hp, hv, hx]; rfl, hstyled, fun h => hexport h.exportForm⟩)
  rcases readChoice_cases hinj.2.2 q.strictness with ⟨s, hs, hstrict⟩ | ⟨c, hs, hstrict⟩
  case inr =>
    exact .inr (.inr
      ⟨c, by rw [he, hf, hp, hv, hx, hs]; rfl, hstyled, fun h => hstrict h.strictness⟩)
  exact .inl ⟨_, by rw [he, hf, hp, hv, hx, hs]; rfl, hstyled, hvisibility, hexport, hstrict⟩

end Policy

end Scaffold.Naming
