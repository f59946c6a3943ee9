import Scaffold.Naming.Literal
import Scaffold.Proofs.Json.Composed
import Scaffold.Proofs.Text.OneLine

/-!
# `Scaffold.Proofs.Json.OneLine` — written values are on one line

Line breaks in a text are escaped when it is written, and numbers have none. So a value is written on
one line, whatever it holds (`oneLine_writeChars`), and so is the literal that is made of it
(`isLine_literal`).

## Contents
- **Numbers.** `oneLine_of_numeral`.
- **Texts.** `oneLine_escaped`, `oneLine_writeString`.
- **Values.** `composed_oneLine`, `oneLine_writeChars`.
- **Literals.** `isLine_literal`.
-/

namespace Scaffold

open Text (IsLine OneLine isLine_ofList oneLine_cons)

/-! ## Numbers -/

theorem oneLine_of_numeral {cs : List Char} (h : Decimal.Numeral cs) : OneLine cs := by
  intro c hc
  have hnumeral := h c hc
  constructor
  · rintro rfl
    exact absurd hnumeral (by decide)
  · rintro rfl
    exact absurd hnumeral (by decide)

/-! ## Texts -/

namespace Json

/-- **A character stands in a written text without breaking the line**, the breaks themselves
    escaped. -/
theorem oneLine_escaped (ascii : Bool) (c : Char) : OneLine (escaped ascii c) := by
  have hcode : ∀ n, OneLine ('\\' :: 'u' :: hex4 n) := fun n =>
    OneLine.append (a := ['\\', 'u']) (by decide) (oneLine_of_numeral (numeral_hex4 n))
  -- one decision after another: only the last one leaves the character as it is
  unfold escaped
  refine iteInduction (fun _ => by decide) fun _ => ?_
  refine iteInduction (fun _ => by decide) fun _ => ?_
  refine iteInduction (fun _ => by decide) fun hnewline => ?_
  refine iteInduction (fun _ => by decide) fun hreturn => ?_
  refine iteInduction (fun _ => by decide) fun _ => ?_
  refine iteInduction (fun _ => by decide) fun _ => ?_
  refine iteInduction (fun _ => by decide) fun _ => ?_
  refine iteInduction (fun _ => hcode _) fun _ => ?_
  refine iteInduction (fun _ => ?_) fun _ => oneLine_cons.mpr ⟨⟨hnewline, hreturn⟩, by decide⟩
  exact iteInduction (fun _ => hcode _) fun _ => (hcode _).append (hcode _)

theorem oneLine_writeString (ascii : Bool) (s : String) : OneLine (writeString ascii s) :=
  oneLine_cons.mpr
    ⟨by decide, (Text.oneLine_flatMap (oneLine_escaped ascii) s.toList).append (by decide)⟩

/-! ## Values -/

/-- Pieces on one line are put together on one line. A text is one of them whatever it holds, since its
    breaks are escaped. -/
theorem composed_oneLine {st : Style} (hcomma : IsLine st.comma) (hcolon : IsLine st.colon) :
    Composed st (fun _ => True) OneLine where
  nil := by decide
  append := OneLine.append
  listed h := oneLine_cons.mpr ⟨by decide, h.append (by decide)⟩
  mapped h := oneLine_cons.mpr ⟨by decide, h.append (by decide)⟩
  comma := hcomma
  colon := hcolon
  numeral := oneLine_of_numeral
  word := by decide
  quoted _ := oneLine_writeString _ _
  named _ := trivial

/-- **A value is written on one line**, whatever it holds. -/
theorem oneLine_writeChars {st : Style} (hcomma : IsLine st.comma) (hcolon : IsLine st.colon)
    (v : Value) {room : Nat} {cs : List Char} (h : writeChars st room v = .ok cs) : OneLine cs :=
  (composed_oneLine hcomma hcolon).writeChars v (fun _ _ => trivial) h

end Json

/-! ## Literals -/

namespace Naming

theorem unquoteKeys_subset (inKey : Bool) (cs : List Char) : unquoteKeys inKey cs ⊆ cs := by
  fun_induction unquoteKeys inKey cs with
  | case1 => exact List.Subset.refl _
  | case2 r ih => exact List.subset_cons_of_subset _ ih
  | case3 c r hc ih => exact List.cons_subset_cons _ ih
  | case4 c r hc ih => exact List.subset_cons_of_subset _ ih
  | case5 c r hc ih => exact List.cons_subset_cons _ ih

theorem inner_subset (cs : List Char) : inner cs ⊆ cs :=
  ((List.dropLast_sublist _).trans (List.tail_sublist _)).subset

/-- **The literal of a value is on one line**, whatever the value holds. -/
theorem isLine_literal {v : Value} {s : String} (h : literal v = .ok s) : IsLine s := by
  obtain ⟨cs, hcs, rfl⟩ := Results.map_eq_ok.mp h
  have hcomma : IsLine "," := isLine_ofList (by decide)
  have hcolon : IsLine ":" := isLine_ofList (by decide)
  have hwritten : OneLine cs := Json.oneLine_writeChars hcomma hcolon v hcs
  exact isLine_ofList ((hwritten.subset (unquoteKeys_subset _ _)).subset (inner_subset _))

end Naming

end Scaffold
