import Scaffold.Proofs.Text.Break

/-!
# `Scaffold.Proofs.Text.OneLine` — texts on one line

What is put together from texts on one line is on one line (`isLine_append`, `IsLine.joinWith`).
Literals are taken apart by `isLine_ofList`, so that deciding about one stays cheap.

## Contents
- **Characters.** `OneLine.subset`, `oneLine_cons`, `oneLine_flatMap`.
- **Texts.** `IsLine`, `isLine_append`, `isLine_ofList`, `isLine_ite`, `IsLine.joinWith`.
-/

namespace Scaffold.Text

/-! ## Characters -/

theorem OneLine.subset {a b : List Char} (h : OneLine b) (hab : a ⊆ b) : OneLine a :=
  fun c hc => h c (hab hc)

theorem oneLine_cons {c : Char} {cs : List Char} :
    OneLine (c :: cs) ↔ (c ≠ '\n' ∧ c ≠ '\r') ∧ OneLine cs := List.forall_mem_cons

theorem oneLine_flatMap {f : Char → List Char} (h : ∀ c, OneLine (f c)) (cs : List Char) :
    OneLine (cs.flatMap f) := by
  intro c hc
  obtain ⟨d, -, hc⟩ := List.mem_flatMap.mp hc
  exact h d c hc

/-! ## Texts -/

/-- No character of the text ends a line. -/
def IsLine (s : String) : Prop := OneLine s.toList

instance (s : String) : Decidable (IsLine s) := inferInstanceAs (Decidable (OneLine s.toList))

theorem isLine_append {a b : String} : IsLine (a ++ b) ↔ IsLine a ∧ IsLine b := by
  unfold IsLine
  rw [String.toList_append]
  exact List.forall_mem_append

theorem isLine_ofList {cs : List Char} (h : OneLine cs) : IsLine (String.ofList cs) := by
  unfold IsLine
  rwa [String.toList_ofList]

theorem isLine_ite {c : Prop} [Decidable c] {a b : String} (ha : IsLine a) (hb : IsLine b) :
    IsLine (if c then a else b) := by
  split
  · exact ha
  · exact hb

/-- A text stands as it is where it is put into another one. -/
theorem toString_text (s : String) : toString s = s := rfl

theorem IsLine.joinWith {sep : String} (hsep : IsLine sep) {ss : List String}
    (h : ∀ s ∈ ss, IsLine s) : IsLine (Text.joinWith sep ss) := by
  fun_induction Text.joinWith sep ss with
  | case1 => exact isLine_ofList (by decide)
  | case2 s => exact h s List.mem_cons_self
  | case3 s t r ih =>
      have hrest := ih fun u hu => h u (List.mem_cons_of_mem _ hu)
      exact isLine_append.mpr ⟨isLine_append.mpr ⟨h s List.mem_cons_self, hsep⟩, hrest⟩

end Scaffold.Text
