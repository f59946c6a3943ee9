import Mathlib.Control.Basic
import Scaffold.Text.Basic

/-!
# `Scaffold.Proofs.Text.Nesting` — texts whose brackets are nested

A text is nested if every bracket in it is closed by its own kind, in order (`Nested`). Read from the
front to the back, a text leaves brackets pending, or closes one that was not pending
(`pendingAfter`); the nested ones are those that leave everything as it was (`nested_iff_pendingAfter`).
So a nested text can be taken out of any other without changing what is pending behind it, and a text
of many pieces is nested if the fixed ones are, put together without the others.

## Contents
- **Brackets.** `closer?`, `isCloser`, `isBracket`, `isBracket_eq_false`, `Nested`.
- **Pending brackets.** `afterChar`, `pendingAfter`, `Nested.pendingAfter`, `Closes`,
  `nested_iff_pendingAfter`.
- **Characters that count.** `brackets`, `nested_congr`, `nested_of_plain`, `Bears`,
  `brackets_flatMap`.
- **Texts.** `IsNested`, `after`, `isNested_iff`, `after_append`, `after_literal`, `isNested_append`,
  `isNested_concat`, `isNested_joinWith`.
-/

namespace Scaffold.Text

/-! ## Brackets -/

/-- The bracket that closes an opening one. -/
def closer? (c : Char) : Option Char :=
  if c = '(' then some ')' else if c = '[' then some ']' else if c = '\x7b' then some '\x7d' else none

/-- A closing bracket. -/
def isCloser (c : Char) : Bool := c = ')' || c = ']' || c = '\x7d'

/-- A bracket of any kind. -/
def isBracket (c : Char) : Bool := (closer? c).isSome || isCloser c

/-- There are six brackets, so what each of them lacks no bracket has. -/
theorem isBracket_eq_false {p : Char → Bool}
    (hp : ['(', ')', '[', ']', '\x7b', '\x7d'].any p = false) {c : Char} (h : p c = true) :
    isBracket c = false := by
  rw [Bool.eq_false_iff]
  intro hc
  suffices hmem : c ∈ ['(', ')', '[', ']', '\x7b', '\x7d'] from
    List.any_eq_false.mp hp c hmem h
  unfold isBracket closer? isCloser at hc
  grind

/-- **Properly nested characters**: every bracket is closed by its own kind, in order. -/
inductive Nested : List Char → Prop
  | nil : Nested []
  | plain {c : Char} (h : isBracket c = false) {cs : List Char} (rest : Nested cs) : Nested (c :: cs)
  | group {o c : Char} (h : closer? o = some c) {cs ds : List Char} (inside : Nested cs)
      (rest : Nested ds) : Nested (o :: (cs ++ c :: ds))

/-! ## Pending brackets -/

/-- The closing brackets that are pending after one more character, the next one first. -/
def afterChar (pending : List Char) (c : Char) : Option (List Char) :=
  match closer? c with
  | some d => some (d :: pending)
  | none =>
    if isCloser c then
      match pending with
      | d :: r => if c = d then some r else none
      | [] => none
    else some pending

/-- The closing brackets that are pending after a text. There are none if it closes a bracket that was
    not pending. -/
def pendingAfter (pending cs : List Char) : Option (List Char) := cs.foldlM afterChar pending

theorem pendingAfter_cons (pending : List Char) (c : Char) (cs : List Char) :
    pendingAfter pending (c :: cs) = (afterChar pending c).bind fun p => pendingAfter p cs :=
  List.foldlM_cons

theorem pendingAfter_append (pending a b : List Char) :
    pendingAfter pending (a ++ b) = (pendingAfter pending a).bind fun p => pendingAfter p b :=
  List.foldlM_append

theorem closer?_of_isCloser {c : Char} (h : isCloser c = true) : closer? c = none := by
  unfold isCloser at h
  simp only [Bool.or_eq_true, decide_eq_true_eq] at h
  rcases h with (rfl | rfl) | rfl <;> rfl

theorem isCloser_of_closer? {o c : Char} (h : closer? o = some c) : isCloser c = true := by
  unfold closer? at h
  repeat' split at h
  all_goals cases h
  all_goals rfl

theorem afterChar_plain {c : Char} (h : isBracket c = false) (pending : List Char) :
    afterChar pending c = some pending := by
  unfold isBracket at h
  rw [Bool.or_eq_false_iff, Option.isSome_eq_false_iff, Option.isNone_iff_eq_none] at h
  unfold afterChar
  rw [h.1, h.2]
  rfl

theorem afterChar_opener {o c : Char} (h : closer? o = some c) (pending : List Char) :
    afterChar pending o = some (c :: pending) := by
  unfold afterChar
  rw [h]

theorem afterChar_closer {c : Char} (h : isCloser c = true) (pending : List Char) :
    afterChar (c :: pending) c = some pending := by
  unfold afterChar
  rw [closer?_of_isCloser h, h]
  simp

/-- **A nested text leaves everything as it was.** -/
theorem Nested.pendingAfter {cs : List Char} (h : Nested cs) (pending : List Char) :
    pendingAfter pending cs = some pending := by
  induction h generalizing pending with
  | nil => rfl
  | plain hc _ ih =>
      rw [pendingAfter_cons, afterChar_plain hc]
      exact ih pending
  | group hc _ _ ihInside ihRest =>
      rw [pendingAfter_cons, afterChar_opener hc, Option.bind_some, pendingAfter_append, ihInside,
        Option.bind_some, pendingAfter_cons, afterChar_closer (isCloser_of_closer? hc)]
      exact ihRest pending

theorem Nested.append {a b : List Char} (ha : Nested a) (hb : Nested b) : Nested (a ++ b) := by
  induction ha with
  | nil => exact hb
  | plain hc _ ih => exact .plain hc ih
  | group hc inside _ _ ih =>
      rw [List.cons_append, List.append_assoc, List.cons_append]
      exact .group hc inside ih

/-- A text closes what is pending, with nested texts in front of each closing bracket and behind the
    last one. -/
def Closes : (pending cs : List Char) → Prop
  | [], cs => Nested cs
  | d :: pending, cs => ∃ a b, cs = a ++ d :: b ∧ Nested a ∧ Closes pending b

theorem Closes.append {pending a b : List Char} (ha : Nested a) (hb : Closes pending b) :
    Closes pending (a ++ b) := by
  cases pending with
  | nil => exact ha.append hb
  | cons d pending =>
      obtain ⟨c, r, rfl, hc, hr⟩ := hb
      exact ⟨a ++ c, r, (List.append_assoc ..).symm, ha.append hc, hr⟩

/-- What leaves nothing pending has closed all that was. -/
theorem closes_of_pendingAfter {cs : List Char} :
    ∀ {pending : List Char}, pendingAfter pending cs = some [] → Closes pending cs := by
  induction cs with
  | nil =>
      intro pending h
      cases h
      exact .nil
  | cons c cs ih =>
      intro pending h
      rw [pendingAfter_cons] at h
      obtain ⟨p, hp, hrest⟩ := Option.bind_eq_some_iff.mp h
      have hcloses := ih hrest
      unfold afterChar at hp
      split at hp
      · -- an opening bracket: what closes it comes before anything else
        rename_i d hd
        cases hp
        obtain ⟨a, b, rfl, ha, hb⟩ := hcloses
        have hgroup : Nested (c :: (a ++ [d])) := .group hd ha .nil
        have htext : c :: (a ++ d :: b) = (c :: (a ++ [d])) ++ b := by simp
        exact htext ▸ Closes.append hgroup hb
      · rename_i hopener
        split at hp
        · split at hp
          · rename_i d rest
            split at hp
            · rename_i heq
              cases hp
              exact ⟨[], cs, by rw [heq]; rfl, .nil, hcloses⟩
            · exact nomatch hp
          · exact nomatch hp
        · rename_i hcloser
          cases hp
          have hplain : isBracket c = false := by
            unfold isBracket
            rw [hopener, Bool.eq_false_iff.mpr hcloser]
            rfl
          exact Closes.append (.plain hplain .nil) hcloses

/-- **A text is nested if it leaves nothing pending where nothing was**, and then it leaves everything
    as it was. -/
theorem nested_iff_pendingAfter {cs : List Char} : Nested cs ↔ pendingAfter [] cs = some [] :=
  ⟨fun h => h.pendingAfter [], closes_of_pendingAfter⟩

instance (cs : List Char) : Decidable (Nested cs) := decidable_of_iff _ nested_iff_pendingAfter.symm

/-! ## Characters that count -/

/-- The brackets of a text. -/
def brackets (cs : List Char) : List Char := cs.filter isBracket

theorem brackets_append (a b : List Char) : brackets (a ++ b) = brackets a ++ brackets b :=
  List.filter_append ..

theorem pendingAfter_brackets (pending cs : List Char) :
    pendingAfter pending (brackets cs) = pendingAfter pending cs := by
  induction cs generalizing pending with
  | nil => rfl
  | cons c cs ih =>
      unfold brackets at ih ⊢
      cases hc : isBracket c with
      | true =>
          rw [List.filter_cons_of_pos hc, pendingAfter_cons, pendingAfter_cons]
          exact Option.bind_congr fun p _ => ih p
      | false =>
          rw [List.filter_cons_of_neg (by simp [hc]), pendingAfter_cons, afterChar_plain hc]
          exact ih pending

/-- Only the brackets of a text count. -/
theorem nested_congr {a b : List Char} (h : brackets a = brackets b) : Nested a ↔ Nested b := by
  rw [nested_iff_pendingAfter, nested_iff_pendingAfter, ← pendingAfter_brackets, h,
    pendingAfter_brackets]

theorem brackets_eq_nil {cs : List Char} (h : ∀ c ∈ cs, isBracket c = false) : brackets cs = [] :=
  List.filter_eq_nil_iff.mpr fun c hc => by simp [h c hc]

theorem nested_of_plain {cs : List Char} (h : ∀ c ∈ cs, isBracket c = false) : Nested cs :=
  (nested_congr (brackets_eq_nil h)).mpr .nil

/-- The bracket that `c` is, and no other: characters that may stand for `c`. -/
def Bears (c : Char) (cs : List Char) : Prop := brackets cs = brackets [c]

/-- Characters may be written otherwise, if each one keeps its bracket. -/
theorem brackets_flatMap {f : Char → List Char} (h : ∀ c, Bears c (f c)) (cs : List Char) :
    brackets (cs.flatMap f) = brackets cs := by
  induction cs with
  | nil => rfl
  | cons c cs ih => rw [List.flatMap_cons, brackets_append, h c, ih, ← brackets_append]; rfl

/-! ## Texts -/

/-- **A text whose brackets are properly nested.** -/
def IsNested (s : String) : Prop := Nested s.toList

instance (s : String) : Decidable (IsNested s) := inferInstanceAs (Decidable (Nested s.toList))

/-- The closing brackets that are pending after a text. -/
def after (s : String) (pending : List Char) : Option (List Char) := pendingAfter pending s.toList

theorem isNested_iff {s : String} : IsNested s ↔ after s [] = some [] := nested_iff_pendingAfter

/-- A nested text does nothing to what is pending. -/
theorem IsNested.after {s : String} (h : IsNested s) : after s = pure :=
  funext fun pending => h.pendingAfter pending

/-- Texts are read one after the other. -/
theorem after_append (a b : String) : after (a ++ b) = after a >=> after b := by
  funext pending
  unfold after
  rw [String.toList_append]
  exact pendingAfter_append ..

/-- A literal is taken apart, so that deciding about it stays cheap. -/
theorem after_literal {s : String} {cs : List Char} (h : s = String.ofList cs) :
    after s = fun pending => pendingAfter pending cs := by
  funext pending
  unfold after
  rw [h, String.toList_ofList]

theorem isNested_append {a b : String} (ha : IsNested a) (hb : IsNested b) : IsNested (a ++ b) := by
  rw [isNested_iff, after_append, ha.after, hb.after]
  rfl

theorem isNested_ofList {cs : List Char} (h : Nested cs) : IsNested (String.ofList cs) := by
  unfold IsNested
  rwa [String.toList_ofList]

theorem isNested_ite {c : Prop} [Decidable c] {a b : String} (ha : IsNested a) (hb : IsNested b) :
    IsNested (if c then a else b) := by
  split
  · exact ha
  · exact hb

theorem isNested_concat {ss : List String} (h : ∀ s ∈ ss, IsNested s) : IsNested (concat ss) := by
  induction ss with
  | nil => exact .nil
  | cons s ss ih =>
      exact isNested_append (h s List.mem_cons_self) (ih fun t ht => h t (List.mem_cons_of_mem _ ht))

theorem isNested_joinWith {sep : String} (hsep : IsNested sep) {ss : List String}
    (h : ∀ s ∈ ss, IsNested s) : IsNested (joinWith sep ss) := by
  fun_induction joinWith sep ss with
  | case1 => exact .nil
  | case2 s => exact h s List.mem_cons_self
  | case3 s t r ih =>
      have hrest := ih fun u hu => h u (List.mem_cons_of_mem _ hu)
      exact isNested_append (isNested_append (h s List.mem_cons_self) hsep) hrest

end Scaffold.Text
