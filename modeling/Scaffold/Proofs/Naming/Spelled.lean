import Mathlib.Data.List.SplitBy
import Scaffold.Naming.CaseStyle
import Scaffold.Proofs.Naming.Words

/-!
# `Scaffold.Proofs.Naming.Spelled` — which names are converted alike

Every style that converts at all spells the words of a name one after another, and what a further word
begins with stands nowhere else: a capital, an underscore or a hyphen. So a converted name can be cut
into its words again (`splitBy_spelled`), and two names are converted alike exactly if their words are
the same in small letters, whatever the style (`convert_eq_convert_iff`).

## Contents
- **Words.** `lowered_lowered`, `capitalized_lowered`, `isSmall_of_mem_lowered`, `capitalized_digit`,
  `capitalized_letter`.
- **Spelling.** `CaseStyle.first`, `CaseStyle.further`, `CaseStyle.spelled`, `convertChars_eq`.
- **Cutting again.** `CaseStyle.opens`, `exists_further`, `exists_first`, `splitBy_spelled`.
- **Reading back.** `readBack`, `map_readBack_spelled`, `flatten_spelled_eq_iff`.
- **Names.** `loweredWords`, `convert_eq_iff`, `convert_eq_convert_iff`.
-/

namespace Scaffold.Naming

open Text

/-! ## Words -/

theorem lowered_lowered (w : List Char) : lowered (lowered w) = lowered w := by
  rw [lowered, lowered, List.map_map]
  exact List.map_congr_left fun c _ => lowerChar_lowerChar c

theorem capitalized_lowered (leading : Bool) (w : List Char) :
    capitalized leading (lowered w) = capitalized leading w := by
  cases w with
  | nil => rfl
  | cons c r =>
      show capitalized leading (lowerChar c :: lowered r) = capitalized leading (c :: r)
      rw [capitalized, capitalized, lowered_lowered, isDigit_lowerChar, upperChar_lowerChar]
      split
      · rename_i hdigit
        have hc : isDigit c = true := (Bool.and_eq_true_iff.mp hdigit).2
        rw [lowerChar_of_not_isUpper (not_isUpper_of_isDigit hc)]
      · rfl

theorem IsWord.lowered {w : List Char} (h : IsWord w) : ∀ c ∈ lowered w, isSmall c = true := by
  intro c hc
  obtain ⟨d, hd, rfl⟩ := List.mem_map.mp hc
  exact isSmall_lowerChar (h.alnum d hd)

/-- A word has a first character and small ones after it, once these are made small. -/
theorem IsWord.exists_cons {w : List Char} (h : IsWord w) :
    ∃ c r, w = c :: r ∧ isAlnum c = true ∧ ∀ d ∈ Naming.lowered r, isSmall d = true := by
  obtain ⟨c, r, rfl⟩ := List.exists_cons_of_ne_nil h.nonempty
  refine ⟨c, r, rfl, h.alnum c List.mem_cons_self, ?_⟩
  intro d hd
  exact h.lowered d (List.mem_cons_of_mem _ hd)

theorem capitalized_digit {c : Char} (hc : isDigit c = true) (r : List Char) :
    capitalized false (c :: r) = '_' :: c :: lowered r := by
  rw [capitalized, if_pos (by simp [hc])]

theorem capitalized_letter {c : Char} (hc : isDigit c = false) (leading : Bool) (r : List Char) :
    capitalized leading (c :: r) = upperChar c :: lowered r := by
  rw [capitalized, if_neg (by simp [hc])]

/-- A letter that is no digit has a capital. -/
theorem isUpper_upperChar_of_letter {c : Char} (h : isAlnum c = true) (hc : isDigit c = false) :
    isUpper (upperChar c) = true := by
  by_cases hlower : isLower c = true
  · exact isUpper_upperChar hlower
  · have hlower : isLower c = false := Bool.eq_false_iff.mpr hlower
    rw [upperChar_of_not_isLower hlower]
    simpa [isAlnum, hc, hlower] using h

/-! ## Spelling -/

namespace CaseStyle

/-- How the first word of a name is spelled. -/
def first : CaseStyle → List Char → List Char
  | .pascal, w => capitalized true w
  | .verbatim, w => w
  | _, w => lowered w

/-- How a word is spelled that follows another one, with the mark in front if there is one. -/
def further : CaseStyle → List Char → List Char
  | .param, w => '-' :: lowered w
  | .snake, w => '_' :: lowered w
  | .verbatim, w => w
  | _, w => capitalized false w

/-- The spellings of the words of a name. -/
def spelled (s : CaseStyle) : List (List Char) → List (List Char)
  | [] => []
  | w :: ws => s.first w :: ws.map s.further

/-- What a further word begins with: a capital or a mark. -/
def opens : CaseStyle → Char → Bool
  | .param, c => c = '-'
  | .snake, c => c = '_'
  | _, c => isUpper c || c = '_'

end CaseStyle

theorem joined_cons (mark : Char) (w : List Char) (ws : List (List Char)) :
    joined mark (w :: ws) = lowered w ++ ws.flatMap fun v => mark :: lowered v := by
  induction ws generalizing w with
  | nil => rw [joined, List.flatMap_nil, List.append_nil]
  | cons v ws ih =>
      rw [joined, ih, List.flatMap_cons]
      rfl

/-- **A style spells one word after another.** -/
theorem convertChars_eq {s : CaseStyle} (hs : s ≠ .verbatim) (cs : List Char) :
    s.convertChars cs = (s.spelled (words cs)).flatten := by
  cases s with
  | verbatim => exact absurd rfl hs
  | camel =>
      show camel (words cs) = _
      cases words cs <;> rfl
  | pascal =>
      show pascal (words cs) = _
      cases words cs <;> rfl
  | param =>
      show joined '-' (words cs) = _
      cases words cs with
      | nil => rfl
      | cons w ws => exact joined_cons '-' w ws
  | snake =>
      show joined '_' (words cs) = _
      cases words cs with
      | nil => rfl
      | cons w ws => exact joined_cons '_' w ws

/-! ## Cutting again -/

section Spelled

variable {s : CaseStyle} {w : List Char} {ws vs : List (List Char)}

theorem not_opens_of_isSmall {c : Char} (hc : isSmall c = true) : s.opens c = false := by
  have hupper := not_isUpper_of_isSmall hc
  have hhyphen : c ≠ '-' := by
    rintro rfl
    exact absurd hc (by decide)
  have hunderscore : c ≠ '_' := by
    rintro rfl
    exact absurd hc (by decide)
  cases s <;> simp [CaseStyle.opens, hupper, hhyphen, hunderscore]

/-- **A further word begins with an opener, and has no other one.** -/
theorem exists_further (hs : s ≠ .verbatim) (hw : IsWord w) :
    ∃ m t, s.further w = m :: t ∧ s.opens m = true ∧ ∀ c ∈ t, s.opens c = false := by
  have hmarked : ∀ c ∈ lowered w, s.opens c = false := fun c hc =>
    not_opens_of_isSmall (hw.lowered c hc)
  -- with a capital or an underscore in front, as in two of the styles
  have hcapital : ∃ m t, capitalized false w = m :: t ∧ (isUpper m || m = '_') = true ∧
      ∀ c ∈ t, s.opens c = false := by
    obtain ⟨c, r, rfl, hc, hr⟩ := hw.exists_cons
    have hrest : ∀ d ∈ lowered r, s.opens d = false := fun d hd => not_opens_of_isSmall (hr d hd)
    by_cases hdigit : isDigit c = true
    · have hsmall : isSmall c = true := by simp [isSmall, hdigit]
      refine ⟨'_', c :: lowered r, capitalized_digit hdigit r, by simp, ?_⟩
      exact List.forall_mem_cons.mpr ⟨not_opens_of_isSmall hsmall, hrest⟩
    · have hdigit : isDigit c = false := Bool.eq_false_iff.mpr hdigit
      have hupper := isUpper_upperChar_of_letter hc hdigit
      exact ⟨upperChar c, lowered r, capitalized_letter hdigit false r, by simp [hupper], hrest⟩
  cases s with
  | verbatim => exact absurd rfl hs
  | camel => exact hcapital
  | pascal => exact hcapital
  | param => exact ⟨'-', lowered w, rfl, rfl, hmarked⟩
  | snake => exact ⟨'_', lowered w, rfl, rfl, hmarked⟩

/-- The first word has no opener behind its first character. -/
theorem exists_first (hs : s ≠ .verbatim) (hw : IsWord w) :
    ∃ m t, s.first w = m :: t ∧ ∀ c ∈ t, s.opens c = false := by
  obtain ⟨c, r, rfl, -, hr⟩ := hw.exists_cons
  have hrest : ∀ d ∈ lowered r, s.opens d = false := fun d hd => not_opens_of_isSmall (hr d hd)
  cases s with
  | verbatim => exact absurd rfl hs
  | pascal => exact ⟨upperChar c, lowered r, rfl, hrest⟩
  | camel => exact ⟨lowerChar c, lowered r, rfl, hrest⟩
  | param => exact ⟨lowerChar c, lowered r, rfl, hrest⟩
  | snake => exact ⟨lowerChar c, lowered r, rfl, hrest⟩

/-- Members that stand in a relation to all behind the first one form a chain. -/
theorem isChain_cons_of_forall {α : Type} {R : α → α → Prop} {a : α} {l : List α}
    (h : ∀ x ∈ a :: l, ∀ y ∈ l, R x y) : List.IsChain R (a :: l) := by
  induction l generalizing a with
  | nil => exact List.isChain_singleton a
  | cons b l ih =>
      refine List.isChain_cons_cons.mpr ⟨h a List.mem_cons_self b List.mem_cons_self, ih ?_⟩
      intro x hx y hy
      exact h x (List.mem_cons_of_mem _ hx) y (List.mem_cons_of_mem _ hy)

/-- **A converted name can be cut into its words again**: before every opener. -/
theorem splitBy_spelled (hs : s ≠ .verbatim) (hws : ∀ w ∈ ws, IsWord w) :
    (s.spelled ws).flatten.splitBy (fun _ c => !s.opens c) = s.spelled ws := by
  cases ws with
  | nil => rfl
  | cons w ws =>
      obtain ⟨hw, hws⟩ := List.forall_mem_cons.mp hws
      -- of every spelling only the first character may be an opener, and of the further ones it is
      have hspelled : ∀ p ∈ s.spelled (w :: ws), ∃ m t, p = m :: t ∧
          ∀ c ∈ t, s.opens c = false := by
        refine List.forall_mem_cons.mpr ⟨exists_first hs hw, List.forall_mem_map.mpr ?_⟩
        intro v hv
        obtain ⟨m, t, hfurther, -, ht⟩ := exists_further hs (hws v hv)
        exact ⟨m, t, hfurther, ht⟩
      apply List.splitBy_flatten
      · intro hnil
        obtain ⟨m, t, h, -⟩ := hspelled [] hnil
        exact absurd h (by simp)
      · intro p hp
        obtain ⟨m, t, rfl, ht⟩ := hspelled p hp
        refine isChain_cons_of_forall fun _ _ c hc => ?_
        simp [ht c hc]
      · refine isChain_cons_of_forall fun p hp q hq => ?_
        obtain ⟨m, t, rfl, -⟩ := hspelled p hp
        obtain ⟨v, hv, rfl⟩ := List.mem_map.mp hq
        obtain ⟨k, u, hfurther, hopens, -⟩ := exists_further hs (hws v hv)
        refine ⟨List.cons_ne_nil m t, by simp [hfurther], ?_⟩
        simp [hfurther, hopens]

/-! ## Reading back -/

/-- The word of a spelling, in small letters. -/
def readBack (p : List Char) : List Char := lowered (p.filter isAlnum)

theorem readBack_lowered (hw : IsWord w) : readBack (lowered w) = lowered w := by
  have hall : (lowered w).filter isAlnum = lowered w :=
    List.filter_eq_self.mpr fun c hc => isAlnum_of_isSmall (hw.lowered c hc)
  rw [readBack, hall, lowered_lowered]

theorem readBack_mark {m : Char} (hm : isAlnum m = false) (p : List Char) :
    readBack (m :: p) = readBack p := by
  rw [readBack, List.filter_cons_of_neg (by simp [hm]), readBack]

theorem readBack_capitalized (hw : IsWord w) (leading : Bool) :
    readBack (capitalized leading w) = lowered w := by
  obtain ⟨c, r, rfl, hc, hr⟩ := hw.exists_cons
  have hrest : (lowered r).filter isAlnum = lowered r :=
    List.filter_eq_self.mpr fun d hd => isAlnum_of_isSmall (hr d hd)
  have hcapital : readBack (upperChar c :: lowered r) = lowered (c :: r) := by
    rw [readBack, List.filter_cons_of_pos (isAlnum_upperChar hc), hrest]
    show lowerChar (upperChar c) :: lowered (lowered r) = lowerChar c :: lowered r
    rw [lowerChar_upperChar, lowered_lowered]
  rw [capitalized]
  split
  · -- behind the underscore the digit stands as it was
    rw [readBack_mark rfl, readBack, List.filter_cons_of_pos hc, hrest]
    show lowerChar c :: lowered (lowered r) = lowerChar c :: lowered r
    rw [lowered_lowered]
  · exact hcapital

theorem readBack_first (hs : s ≠ .verbatim) (hw : IsWord w) : readBack (s.first w) = lowered w := by
  cases s with
  | verbatim => exact absurd rfl hs
  | pascal => exact readBack_capitalized hw true
  | camel => exact readBack_lowered hw
  | param => exact readBack_lowered hw
  | snake => exact readBack_lowered hw

theorem readBack_further (hs : s ≠ .verbatim) (hw : IsWord w) :
    readBack (s.further w) = lowered w := by
  cases s with
  | verbatim => exact absurd rfl hs
  | pascal => exact readBack_capitalized hw false
  | camel => exact readBack_capitalized hw false
  | param => exact (readBack_mark rfl _).trans (readBack_lowered hw)
  | snake => exact (readBack_mark rfl _).trans (readBack_lowered hw)

/-- The words in small letters are read back from their spellings. -/
theorem map_readBack_spelled (hs : s ≠ .verbatim) (hws : ∀ w ∈ ws, IsWord w) :
    (s.spelled ws).map readBack = ws.map lowered := by
  cases ws with
  | nil => rfl
  | cons w ws =>
      obtain ⟨hw, hws⟩ := List.forall_mem_cons.mp hws
      rw [CaseStyle.spelled, List.map_cons, List.map_cons, List.map_map, readBack_first hs hw]
      congr 1
      exact List.map_congr_left fun v hv => readBack_further hs (hws v hv)

/-- Words are spelled as they are in small letters. -/
theorem spelled_lowered (hs : s ≠ .verbatim) (ws : List (List Char)) :
    s.spelled (ws.map lowered) = s.spelled ws := by
  have hfirst : ∀ w, s.first (lowered w) = s.first w := by
    intro w
    cases s with
    | verbatim => exact absurd rfl hs
    | pascal => exact capitalized_lowered true w
    | camel => exact lowered_lowered w
    | param => exact lowered_lowered w
    | snake => exact lowered_lowered w
  have hfurther : ∀ w, s.further (lowered w) = s.further w := by
    intro w
    cases s with
    | verbatim => exact absurd rfl hs
    | pascal => exact capitalized_lowered false w
    | camel => exact capitalized_lowered false w
    | param => exact congrArg ('-' :: ·) (lowered_lowered w)
    | snake => exact congrArg ('_' :: ·) (lowered_lowered w)
  cases ws with
  | nil => rfl
  | cons w ws =>
      rw [List.map_cons, CaseStyle.spelled, CaseStyle.spelled, hfirst, List.map_map]
      congr 1
      exact List.map_congr_left fun v _ => hfurther v

/-- **Words are spelled alike exactly if they are the same in small letters.** -/
theorem flatten_spelled_eq_iff (hs : s ≠ .verbatim) (hws : ∀ w ∈ ws, IsWord w)
    (hvs : ∀ v ∈ vs, IsWord v) :
    (s.spelled ws).flatten = (s.spelled vs).flatten ↔ ws.map lowered = vs.map lowered := by
  constructor
  · intro h
    have hspelled : s.spelled ws = s.spelled vs := by
      rw [← splitBy_spelled hs hws, ← splitBy_spelled hs hvs, h]
    rw [← map_readBack_spelled hs hws, ← map_readBack_spelled hs hvs, hspelled]
  · intro h
    rw [← spelled_lowered hs ws, ← spelled_lowered hs vs, h]

end Spelled

/-! ## Names -/

/-- The words of a name in small letters. -/
def loweredWords (name : String) : List (List Char) := (words name.toList).map lowered

theorem convert_eq_iff {s : CaseStyle} (hs : s ≠ .verbatim) (a b : String) :
    s.convert a = s.convert b ↔ loweredWords a = loweredWords b := by
  have hwords : ∀ name : String, ∀ w ∈ words name.toList, IsWord w := fun _ _ => isWord_of_mem_words
  rw [CaseStyle.convert, CaseStyle.convert, String.ofList_inj, convertChars_eq hs, convertChars_eq hs]
  exact flatten_spelled_eq_iff hs (hwords a) (hwords b)

/-- **Two names are converted alike exactly if they have the same words in small letters**, whatever
    the style. So names that clash in one style clash in every style, but for the one that leaves them
    as they are. -/
theorem convert_eq_convert_iff (a b : String) :
    (∀ s : CaseStyle, s ≠ .verbatim →
      (s.convert a = s.convert b ↔ (words a.toList).map lowered = (words b.toList).map lowered)) ∧
    ∀ s t : CaseStyle, s ≠ .verbatim → t ≠ .verbatim →
      (s.convert a = s.convert b ↔ t.convert a = t.convert b) := by
  constructor
  · intro s hs
    exact convert_eq_iff hs a b
  · intro s t hs ht
    exact (convert_eq_iff hs a b).trans (convert_eq_iff ht a b).symm

/-- A name of two words and one that shouts the first of them clash; a name whose first word goes on
    does not clash with them. -/
theorem clash_userProfile :
    CaseStyle.camel ≠ .verbatim ∧ CaseStyle.snake ≠ .verbatim ∧
      CaseStyle.camel.convert "USER-profile" = CaseStyle.camel.convert "userProfile" ∧
      CaseStyle.snake.convert "USER-profile" = CaseStyle.snake.convert "userProfile" ∧
      CaseStyle.camel.convert "userprofile" ≠ CaseStyle.camel.convert "userProfile" := by
  have hcamel : CaseStyle.camel ≠ .verbatim := by decide
  have hsnake : CaseStyle.snake ≠ .verbatim := by decide
  have hsame := ((convert_eq_convert_iff "USER-profile" "userProfile").1 .camel hcamel).mpr (by decide)
  refine ⟨hcamel, hsnake, hsame, ?_, ?_⟩
  · exact ((convert_eq_convert_iff "USER-profile" "userProfile").2 .camel .snake hcamel hsnake).mp hsame
  · intro h
    exact absurd (((convert_eq_convert_iff _ _).1 .camel hcamel).mp h) (by decide)

end Scaffold.Naming
