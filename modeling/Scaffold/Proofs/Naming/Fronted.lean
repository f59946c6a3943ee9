import Scaffold.Proofs.Naming.Spelled

/-!
# `Scaffold.Proofs.Naming.Fronted` — names with a word put in front

The method that finds what a relation leads to is called after the relation: a word and an underscore
stand in front of the name of its field before that is converted. No style joins a word over a mark, so
the words of the whole are those of the front and those of the name (`words_append_mark`), and names
with one front are converted alike exactly if the names are (`convert_front_eq_iff`).

What stands in front shows again in what comes out. Only in camel case a letter or a digit can stand right
behind it; in every other style it has got a capital, or a mark follows it, or nothing
(`exists_convert_find`).

## Contents
- **Words.** `words_append_mark`.
- **One front.** `loweredWords_append_mark`, `convert_front_eq_iff`, `convert_find_eq_iff`.
- **Finding.** `convertChars_find`, `exists_convert_find`, `exists_convert_find_camel`.
-/

namespace Scaffold.Naming

open Text

/-! ## Words -/

/-- **No word goes over a mark.** -/
theorem words_append_mark {mark : Char} (hmark : isAlnum mark = false) (a r : List Char) :
    words (a ++ mark :: r) = words a ++ words r := by
  have hrows : alnumRows (a ++ mark :: r) = alnumRows a ++ alnumRows r := by
    unfold alnumRows
    rw [List.splitOnP_append_cons a r (by simp [hmark]), List.filter_append]
  have hwords : ∀ name, words name = (alnumRows name).flatMap cutRow := fun name =>
    (words_eq_scan name).trans (scan_eq_rows name)
  rw [hwords, hwords, hwords, hrows, List.flatMap_append]

/-! ## One front -/

theorem loweredWords_append_mark {front : String} {w : List Char} {mark : Char}
    (hfront : front.toList = w ++ [mark]) (hmark : isAlnum mark = false) (name : String) :
    loweredWords (front ++ name) = (words w).map lowered ++ loweredWords name := by
  rw [loweredWords, String.toList_append, hfront, List.append_assoc, List.singleton_append,
    words_append_mark hmark, List.map_append]
  rfl

/-- **Names behind one front are converted alike exactly if the names are**, where the front ends with a
    mark. -/
theorem convert_front_eq_iff {front : String} (w : List Char) (mark : Char)
    (hfront : front.toList = w ++ [mark]) (hmark : isAlnum mark = false) (s : CaseStyle)
    (a b : String) :
    s.convert (front ++ a) = s.convert (front ++ b) ↔ s.convert a = s.convert b := by
  by_cases hs : s = .verbatim
  · subst hs
    simp [CaseStyle.convert, CaseStyle.convertChars]
  · rw [convert_eq_iff hs, convert_eq_iff hs, loweredWords_append_mark hfront hmark,
      loweredWords_append_mark hfront hmark, List.append_cancel_left_eq]

/-- So are names behind `find_`. -/
theorem convert_find_eq_iff (s : CaseStyle) (a b : String) :
    s.convert ("find_" ++ a) = s.convert ("find_" ++ b) ↔ s.convert a = s.convert b :=
  convert_front_eq_iff "find".toList '_' (by decide) (by decide) s a b

/-! ## Finding -/

/-- What is converted behind `find_`, in every style: the word, then the words of the name. -/
theorem convertChars_find {s : CaseStyle} (hs : s ≠ .verbatim) (name : List Char) :
    s.convertChars ("find_".toList ++ name) =
      s.first "find".toList ++ (words name).flatMap s.further := by
  have hwords : words ("find_".toList ++ name) = "find".toList :: words name :=
    words_append_mark (by decide : isAlnum '_' = false) "find".toList name
  rw [convertChars_eq hs, hwords, CaseStyle.spelled, List.flatten_cons, List.flatMap_def]

/-- **Only camel case puts a letter or a digit right behind the small word.** The other styles begin with
    a capital, or a mark comes next, or nothing. -/
theorem exists_convert_find {s : CaseStyle} (hs : s ≠ .camel) (name : String) : ∃ r : List Char,
    (s.convert ("find_" ++ name)).toList = 'F' :: r ∨
      (s.convert ("find_" ++ name)).toList = "find".toList ++ r ∧
        ∀ c ∈ r.head?, isAlnum c = false := by
  have hmarked : ∀ mark, isAlnum mark = false → ∀ ws : List (List Char),
      ∀ c ∈ (ws.flatMap fun w => mark :: lowered w).head?, isAlnum c = false := by
    intro mark hmark ws c hc
    cases ws with
    | nil => exact absurd hc (by simp)
    | cons w ws =>
        cases hc
        exact hmark
  rw [CaseStyle.convert, String.toList_ofList, String.toList_append]
  cases s with
  | camel => exact absurd rfl hs
  | verbatim =>
      refine ⟨'_' :: name.toList, .inr ⟨rfl, ?_⟩⟩
      intro c hc
      cases hc
      decide
  | pascal =>
      rw [convertChars_find (by decide)]
      exact ⟨_, .inl rfl⟩
  | param => exact ⟨_, .inr ⟨convertChars_find (by decide) _, hmarked '-' (by decide) _⟩⟩
  | snake => exact ⟨_, .inr ⟨convertChars_find (by decide) _, hmarked '_' (by decide) _⟩⟩

/-- In camel case nothing is put between the word and what follows it. -/
theorem exists_convert_find_camel (name : String) : ∃ r : List Char,
    (CaseStyle.camel.convert ("find_" ++ name)).toList = "find".toList ++ r := by
  rw [CaseStyle.convert, String.toList_ofList, String.toList_append, convertChars_find (by decide)]
  exact ⟨_, rfl⟩

end Scaffold.Naming
