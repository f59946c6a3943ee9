import Scaffold.Source.Lines

/-!
# `Scaffold.Proofs.Source.Joining` — texts that are put together from lines

## Contents
- **Texts.** `concat_append`.
- **Lines.** `joinLines_append`, `joinLines_flatten`, `joinLines_ne_empty`.
-/

namespace Scaffold.Source

theorem concat_append (ss ts : List String) :
    Text.concat (ss ++ ts) = Text.concat ss ++ Text.concat ts := by
  induction ss with
  | nil => exact (String.empty_append).symm
  | cons s ss ih => rw [List.cons_append, Text.concat, Text.concat, ih, String.append_assoc]

theorem joinLines_append (eol : String) (ls rest : Lines) :
    joinLines eol (ls ++ rest) = joinLines eol ls ++ joinLines eol rest := by
  unfold joinLines
  rw [List.map_append, concat_append]

theorem joinLines_flatten (eol : String) (lss : List Lines) :
    joinLines eol lss.flatten = Text.concat (lss.map (joinLines eol)) := by
  induction lss with
  | nil => rfl
  | cons ls lss ih => rw [List.flatten_cons, joinLines_append, ih]; rfl

/-- A text of lines one of which is not empty is not empty. -/
theorem joinLines_ne_empty {eol : String} {ls : Lines} {l : String} (hl : l ∈ ls) (hne : l ≠ "") :
    joinLines eol ls ≠ "" := by
  intro h
  have hlength : ∀ ls : Lines, joinLines eol ls = "" → ∀ l ∈ ls, l = "" := by
    intro ls
    induction ls with
    | nil => exact fun _ l hl => absurd hl List.not_mem_nil
    | cons x ls ih =>
        intro h l hl
        have hjoined : x ++ eol ++ joinLines eol ls = "" := h
        rw [String.append_eq_empty_iff, String.append_eq_empty_iff] at hjoined
        rcases List.mem_cons.mp hl with rfl | hl
        · exact hjoined.1.1
        · exact ih hjoined.2 l hl
  exact hne (hlength ls h l hl)

end Scaffold.Source
