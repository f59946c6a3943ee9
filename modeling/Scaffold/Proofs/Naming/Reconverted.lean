import Scaffold.Proofs.Naming.Spelled

/-!
# `Scaffold.Proofs.Naming.Reconverted` — converting a converted name

A name that was converted may be converted again, and it is the same as converting it at once if its
words are still found. Where a mark stands between the words they always are. Where only capitals
tell, two words become one if nothing shows where the second one begins: the first is a single letter,
and behind the capital of the second no small letter follows (`Fuses`). These names, and no others, are
converted to something else the second time (`reconvert_iff`).

## Contents
- **Fusing words.** `isLetter`, `IsInitial`, `Fuses`, `FusedAt`.
- **One word.** `scan_append`, `goesOn_small`, `scan_lowered_append`.
- **Capitals.** `capitals`, `goesOn_capital_iff`, `goesOn_capitalized_iff`, `scan_capitals_step`,
  `length_scan_capitals_le`, `scan_capitals_iff`.
- **Marks.** `markedWords`, `scan_markedWords`.
- **Names.** `loweredWords_marked`, `loweredWords_pascal_iff`, `loweredWords_camel_iff`,
  `reconvert_iff`.
-/

namespace Scaffold.Naming

open Text

/-! ## Fusing words -/

/-- A letter of ASCII. -/
def isLetter (c : Char) : Bool := isUpper c || isLower c

/-- A word that begins with a letter and has no other one right behind it: nothing or a digit. -/
def IsInitial (v : List Char) : Prop :=
  ∃ d r, v = d :: r ∧ isLetter d = true ∧ ∀ e ∈ r.head?, isDigit e = true

/-- Two words that are one when both have a capital: the first is a single letter, and no small letter
    shows where the second one begins. -/
def Fuses (w v : List Char) : Prop := (∃ c, w = [c] ∧ isLetter c = true) ∧ IsInitial v

/-- The words at `i` and behind it fuse. -/
def FusedAt (ws : List (List Char)) (i : Nat) : Prop :=
  ∃ w v, ws[i]? = some w ∧ ws[i + 1]? = some v ∧ Fuses w v

theorem isChain_iff_not_fusedAt {ws : List (List Char)} :
    List.IsChain (fun w v => ¬ Fuses w v) ws ↔ ¬ ∃ i, FusedAt ws i := by
  rw [List.isChain_iff_getElem]
  constructor
  · rintro h ⟨i, w, v, hw, hv, hfuses⟩
    obtain ⟨_, rfl⟩ := List.getElem?_eq_some_iff.mp hw
    obtain ⟨hi, rfl⟩ := List.getElem?_eq_some_iff.mp hv
    exact h i hi hfuses
  · intro h i hi hfuses
    exact h ⟨i, _, _, List.getElem?_eq_getElem _, List.getElem?_eq_getElem hi, hfuses⟩

/-- Behind the first word the places are counted from one. -/
theorem fusedAt_cons_iff {w : List Char} {ws : List (List Char)} :
    (∃ i, 1 ≤ i ∧ FusedAt (w :: ws) i) ↔ ∃ i, FusedAt ws i := by
  constructor
  · rintro ⟨i, hi, hfused⟩
    obtain ⟨j, rfl⟩ : ∃ j, i = j + 1 := ⟨i - 1, by omega⟩
    exact ⟨j, hfused⟩
  · rintro ⟨i, hfused⟩
    exact ⟨i + 1, by omega, hfused⟩

theorem not_isDigit_of_isLetter {c : Char} (h : isLetter c = true) : isDigit c = false := by
  rw [← Bool.not_eq_true]
  intro hdigit
  simp only [isLetter, not_isUpper_of_isDigit hdigit, not_isLower_of_isDigit hdigit] at h
  exact Bool.false_ne_true h

theorem isLetter_of_not_isDigit {c : Char} (h : isAlnum c = true) (hc : isDigit c = false) :
    isLetter c = true := by
  simpa [isAlnum, isLetter, hc] using h

/-! ## One word -/

/-- A character that no capital follows goes on with what is no capital. -/
theorem goesOn_cons {c d : Char} (hd : isSmall d = true) (r : List Char) :
    goesOn c (d :: r) = true := by
  have hcut := not_isCut_of_not_isUpper (c := c) (not_isUpper_of_isSmall hd) r
  simp [goesOn, hcut, isAlnum_of_isSmall hd]

/-- **A word with small characters behind its first one is scanned as a whole**, and goes on with the
    rest exactly if its last character does. -/
theorem scan_append {c : Char} {t : List Char} (hc : isAlnum c = true)
    (ht : ∀ d ∈ t, isSmall d = true) (rest : List Char) :
    scan (c :: t ++ rest) =
      if goesOn ((c :: t).getLast (List.cons_ne_nil c t)) rest then
        (scan rest).modifyHead (c :: t ++ ·)
      else (c :: t) :: scan rest := by
  induction t generalizing c with
  | nil =>
      show scan (c :: rest) = _
      rw [scan, if_pos hc]
      rfl
  | cons d t ih =>
      obtain ⟨hd, ht⟩ := List.forall_mem_cons.mp ht
      have hon : goesOn c (d :: t ++ rest) = true := goesOn_cons hd _
      show scan (c :: (d :: t ++ rest)) = _
      rw [scan, if_pos hc, if_pos hon, ih (isAlnum_of_isSmall hd) ht,
        List.getLast_cons (List.cons_ne_nil d t)]
      split
      · rw [List.modifyHead_modifyHead]
        rfl
      · rfl

/-- After a small character a word ends wherever no small one follows. -/
theorem goesOn_small {c : Char} (hc : isSmall c = true) {rest : List Char}
    (hrest : ∀ d ∈ rest.head?, isSmall d = false) : goesOn c rest = false := by
  cases rest with
  | nil => rfl
  | cons d r =>
      by_cases hd : isAlnum d = true
      · have hupper : isUpper d = true := by
          rw [← Bool.not_eq_false]
          intro hnot
          have hsmall := isSmall_of_not_isUpper hd hnot
          rw [hrest d rfl] at hsmall
          exact Bool.false_ne_true hsmall
        have hhump : isHump c (d :: r) = true := by
          rw [isHump, hupper, Bool.and_true]
          exact hc
        simp [goesOn, isCut, hhump]
      · simp [goesOn, hd]

theorem scan_lowered_append {w : List Char} (hw : IsWord w) {rest : List Char}
    (hrest : ∀ d ∈ rest.head?, isSmall d = false) :
    scan (lowered w ++ rest) = lowered w :: scan rest := by
  obtain ⟨c, r, rfl, hc, hr⟩ := hw.exists_cons
  have hlast : isSmall ((lowerChar c :: lowered r).getLast (List.cons_ne_nil _ _)) = true :=
    hw.lowered _ (List.getLast_mem _)
  have hfirst : isAlnum (lowerChar c) = true := isAlnum_of_isSmall (isSmall_lowerChar hc)
  show scan (lowerChar c :: lowered r ++ rest) = _
  rw [scan_append hfirst hr, goesOn_small hlast hrest]
  rfl

/-! ## Capitals -/

section Capitals

variable {w v : List Char} {ws vs : List (List Char)}

/-- The words that follow another one, each with its capital or its underscore. -/
def capitals (ws : List (List Char)) : List Char := ws.flatMap (capitalized false)

theorem not_isSmall_head_capitals (hws : ∀ w ∈ ws, IsWord w) :
    ∀ d ∈ (capitals ws).head?, isSmall d = false := by
  cases ws with
  | nil => exact fun d hd => absurd hd (by simp [capitals])
  | cons w ws =>
      obtain ⟨m, t, hw, hopens, -⟩ :=
        exists_further (s := .pascal) (by decide) (hws w List.mem_cons_self)
      have hw : capitalized false w = m :: t := hw
      intro d hd
      have hd : m = d := by simpa [capitals, hw] using hd
      rw [← Bool.not_eq_true, ← hd]
      intro hsmall
      rw [not_opens_of_isSmall hsmall] at hopens
      exact Bool.false_ne_true hopens

/-- The underscore before a digit belongs to no word. -/
theorem scan_capitals_cons (hw : IsWord w) (ws : List (List Char)) :
    scan (capitals (w :: ws)) = scan (capitalized true w ++ capitals ws) := by
  obtain ⟨c, r, rfl, hc, -⟩ := hw.exists_cons
  rw [capitals, List.flatMap_cons]
  by_cases hdigit : isDigit c = true
  · have hsame : capitalized true (c :: r) = c :: lowered r := by
      show upperChar c :: lowered r = c :: lowered r
      rw [upperChar_of_not_isLower (not_isLower_of_isDigit hdigit)]
    rw [capitalized_digit hdigit, hsame]
    exact scan_of_not_isAlnum rfl _
  · have hdigit : isDigit c = false := Bool.eq_false_iff.mpr hdigit
    rw [capitalized_letter hdigit, capitalized_letter hdigit]
    rfl

theorem goesOn_capital {c d : Char} (hc : isUpper c = true) (hd : isUpper d = true)
    (r : List Char) : goesOn c (d :: r) = !r.head?.any isLower := by
  have hcut : isCut c (d :: r) = r.head?.any isLower := by
    rw [isCut, not_isHump_of_isUpper hc]
    cases r <;> simp [isAcronym, hc, hd]
  simp [goesOn, hcut, isAlnum_of_isUpper hd]

/-- A small letter follows a capital exactly if the word goes on with a letter. -/
theorem any_isLower_iff {q : List Char} (hq : ∀ e ∈ q, isAlnum e = true)
    (hvs : ∀ v ∈ vs, IsWord v) :
    (lowered q ++ capitals vs).head?.any isLower = true ↔ ∃ e ∈ q.head?, isDigit e = false := by
  cases q with
  | nil =>
      -- what begins the next word is no small letter
      have hhead := not_isSmall_head_capitals hvs
      constructor
      · intro h
        obtain ⟨d, hd, hlower⟩ := (Option.any_eq_true _ _).mp h
        have hsmall := hhead d hd
        simp [isSmall, hlower] at hsmall
      · rintro ⟨e, he, -⟩
        exact absurd he (by simp)
  | cons e q =>
      have hsmall := isSmall_lowerChar (hq e List.mem_cons_self)
      show isLower (lowerChar e) = true ↔ _
      constructor
      · intro h
        refine ⟨e, rfl, ?_⟩
        rw [← isDigit_lowerChar, ← Bool.not_eq_true]
        intro hdigit
        rw [not_isLower_of_isDigit hdigit] at h
        exact Bool.false_ne_true h
      · rintro ⟨e', he, hdigit⟩
        obtain rfl : e = e' := Option.some.inj he
        rw [isSmall, isDigit_lowerChar, hdigit, Bool.or_false] at hsmall
        exact hsmall

/-- **After a capital a word goes on exactly if the next one is an initial.** -/
theorem goesOn_capital_iff {c : Char} (hc : isUpper c = true) (hvs : ∀ v ∈ vs, IsWord v) :
    goesOn c (capitals vs) = true ↔ ∃ v ∈ vs.head?, IsInitial v := by
  cases vs with
  | nil => simp [capitals, goesOn]
  | cons v vs =>
      obtain ⟨hv, htail⟩ := List.forall_mem_cons.mp hvs
      obtain ⟨d, q, rfl, hd, -⟩ := hv.exists_cons
      have hq : ∀ e ∈ q, isAlnum e = true := (List.forall_mem_cons.mp hv.alnum).2
      rw [capitals, List.flatMap_cons]
      by_cases hdigit : isDigit d = true
      · -- an underscore comes first
        rw [capitalized_digit hdigit]
        refine ⟨fun h => absurd h (by simp [goesOn, show isAlnum '_' = false from rfl]), ?_⟩
        rintro ⟨v, hv, d', q', hsame, hletter, -⟩
        cases (Option.some.inj hv).trans hsame
        rw [not_isDigit_of_isLetter hletter] at hdigit
        exact absurd hdigit Bool.false_ne_true
      · have hdigit : isDigit d = false := Bool.eq_false_iff.mpr hdigit
        have hnext := any_isLower_iff hq htail
        rw [capitalized_letter hdigit]
        show goesOn c (upperChar d :: (lowered q ++ capitals vs)) = true ↔ _
        rw [goesOn_capital hc (isUpper_upperChar_of_letter hd hdigit), Bool.not_eq_true',
          ← Bool.not_eq_true, hnext]
        constructor
        · intro h
          refine ⟨d :: q, rfl, d, q, rfl, isLetter_of_not_isDigit hd hdigit, ?_⟩
          intro e he
          by_contra hnot
          exact h ⟨e, he, Bool.eq_false_iff.mpr hnot⟩
        · rintro ⟨v, hv, d', q', hsame, -, hsecond⟩ ⟨e, he, hnot⟩
          cases (Option.some.inj hv).trans hsame
          rw [hsecond e he] at hnot
          exact Bool.noConfusion hnot

/-- After a small character a word is over, and it fuses with none if it is no single letter. -/
theorem goesOn_small_iff {c : Char} (hc : isSmall c = true)
    (hw : ∀ d, w = [d] → isLetter d = false) (hvs : ∀ v ∈ vs, IsWord v) :
    goesOn c (capitals vs) = true ↔ ∃ v ∈ vs.head?, Fuses w v := by
  rw [goesOn_small hc (not_isSmall_head_capitals hvs)]
  constructor
  · intro h
    exact absurd h Bool.false_ne_true
  · rintro ⟨v, -, ⟨d, hsame, hletter⟩, -⟩
    rw [hw d hsame] at hletter
    exact absurd hletter Bool.false_ne_true

/-- **A capitalized word goes on with the next one exactly if they fuse.** -/
theorem goesOn_capitalized_iff {c : Char} {r : List Char} (hw : IsWord (c :: r))
    (hvs : ∀ v ∈ vs, IsWord v) :
    goesOn ((upperChar c :: lowered r).getLast (List.cons_ne_nil _ _)) (capitals vs) = true ↔
      ∃ v ∈ vs.head?, Fuses (c :: r) v := by
  have hc : isAlnum c = true := hw.alnum c List.mem_cons_self
  cases r with
  | nil =>
      by_cases hdigit : isDigit c = true
      · have hsmall : isSmall (upperChar c) = true := by
          rw [upperChar_of_not_isLower (not_isLower_of_isDigit hdigit)]
          simp [isSmall, hdigit]
        refine goesOn_small_iff hsmall ?_ hvs
        intro d hsame
        cases hsame
        rw [← Bool.not_eq_true]
        intro hletter
        rw [not_isDigit_of_isLetter hletter] at hdigit
        exact Bool.false_ne_true hdigit
      · have hdigit : isDigit c = false := Bool.eq_false_iff.mpr hdigit
        have hletter : isLetter c = true := isLetter_of_not_isDigit hc hdigit
        show goesOn (upperChar c) (capitals vs) = true ↔ _
        rw [goesOn_capital_iff (isUpper_upperChar_of_letter hc hdigit) hvs]
        constructor
        · rintro ⟨v, hv, hinitial⟩
          exact ⟨v, hv, ⟨c, rfl, hletter⟩, hinitial⟩
        · rintro ⟨v, hv, -, hinitial⟩
          exact ⟨v, hv, hinitial⟩
  | cons d r =>
      have hne : lowered (d :: r) ≠ [] := List.cons_ne_nil _ _
      rw [List.getLast_cons hne]
      refine goesOn_small_iff ?_ ?_ hvs
      · exact hw.lowered _ (List.mem_cons_of_mem _ (List.getLast_mem hne))
      · intro c' hsame
        exact absurd hsame (by simp)

/-- The step of a scan over capitalized words: a word that fuses is joined to what comes next, any
    other one stands alone. -/
theorem scan_capitals_step (hw : IsWord w) (hvs : ∀ v ∈ vs, IsWord v) :
    ((∃ v ∈ vs.head?, Fuses w v) ∧
        ∃ p, scan (capitals (w :: vs)) = (scan (capitals vs)).modifyHead (p ++ ·)) ∨
      (¬ ∃ v ∈ vs.head?, Fuses w v) ∧
        ∃ p, lowered p = lowered w ∧ scan (capitals (w :: vs)) = p :: scan (capitals vs) := by
  obtain ⟨c, r, rfl, hc, hr⟩ := hw.exists_cons
  have hword : capitalized true (c :: r) = upperChar c :: lowered r := rfl
  have hon := goesOn_capitalized_iff hw hvs
  rw [scan_capitals_cons hw, hword, scan_append (isAlnum_upperChar hc) hr]
  by_cases hfuses : ∃ v ∈ vs.head?, Fuses (c :: r) v
  · refine .inl ⟨hfuses, upperChar c :: lowered r, ?_⟩
    rw [if_pos (hon.mpr hfuses)]
  · refine .inr ⟨hfuses, upperChar c :: lowered r, ?_, ?_⟩
    · show lowerChar (upperChar c) :: lowered (lowered r) = lowerChar c :: lowered r
      rw [lowerChar_upperChar, lowered_lowered]
    · rw [if_neg fun h => hfuses (hon.mp h)]

/-- No scan over capitalized words finds more than there were. -/
theorem length_scan_capitals_le (hws : ∀ w ∈ ws, IsWord w) :
    (scan (capitals ws)).length ≤ ws.length := by
  induction ws with
  | nil => exact Nat.le_refl 0
  | cons w ws ih =>
      obtain ⟨hw, hws⟩ := List.forall_mem_cons.mp hws
      have hrest := ih hws
      rcases scan_capitals_step hw hws with ⟨-, p, hscan⟩ | ⟨-, p, -, hscan⟩
      · rw [hscan, List.length_modifyHead, List.length_cons]
        omega
      · rw [hscan, List.length_cons, List.length_cons]
        omega

/-- **Capitalized words are found again exactly if no two neighbours fuse.** -/
theorem scan_capitals_iff (hws : ∀ w ∈ ws, IsWord w) :
    (scan (capitals ws)).map lowered = ws.map lowered ↔
      List.IsChain (fun w v => ¬ Fuses w v) ws := by
  induction ws with
  | nil => exact ⟨fun _ => List.isChain_nil, fun _ => rfl⟩
  | cons w ws ih =>
      obtain ⟨hw, hws⟩ := List.forall_mem_cons.mp hws
      rw [List.isChain_cons]
      rcases scan_capitals_step hw hws with ⟨⟨v, hv, hfuses⟩, p, hscan⟩ | ⟨hfuses, p, hp, hscan⟩
      · -- one word is missing
        constructor
        · intro h
          have hlength := congrArg List.length h
          have hle := length_scan_capitals_le hws
          rw [hscan, List.length_map, List.length_map, List.length_modifyHead,
            List.length_cons] at hlength
          omega
        · rintro ⟨hnot, -⟩
          exact absurd hfuses (hnot v hv)
      · rw [hscan, List.map_cons, List.map_cons, hp, List.cons_inj_right, ih hws]
        constructor
        · intro hchain
          exact ⟨fun v hv h => hfuses ⟨v, hv, h⟩, hchain⟩
        · rintro ⟨-, hchain⟩
          exact hchain

end Capitals

/-! ## Marks -/

section Marks

variable {mark : Char} {w : List Char} {ws : List (List Char)}

/-- The words that follow another one, each in small letters with the mark in front. -/
def markedWords (mark : Char) (ws : List (List Char)) : List Char :=
  ws.flatMap fun w => mark :: lowered w

theorem not_isSmall_head_markedWords (hmark : isAlnum mark = false) (ws : List (List Char)) :
    ∀ d ∈ (markedWords mark ws).head?, isSmall d = false := by
  intro d hd
  cases ws with
  | nil => exact absurd hd (by simp [markedWords])
  | cons w ws =>
      obtain rfl : mark = d := Option.some.inj hd
      rw [← Bool.not_eq_true]
      intro hsmall
      rw [isAlnum_of_isSmall hsmall] at hmark
      exact Bool.noConfusion hmark

/-- **Small words with marks between them are always found again.** -/
theorem scan_markedWords (hmark : isAlnum mark = false) (hws : ∀ w ∈ ws, IsWord w) :
    scan (markedWords mark ws) = ws.map lowered := by
  induction ws with
  | nil => rfl
  | cons w ws ih =>
      obtain ⟨hw, hws⟩ := List.forall_mem_cons.mp hws
      have hhead := not_isSmall_head_markedWords hmark ws
      calc scan (markedWords mark (w :: ws))
          = scan (lowered w ++ markedWords mark ws) := scan_of_not_isAlnum hmark _
        _ = lowered w :: scan (markedWords mark ws) := scan_lowered_append hw hhead
        _ = (w :: ws).map lowered := by rw [ih hws, List.map_cons]

end Marks

/-! ## Names -/

theorem loweredWords_convert {s : CaseStyle} (hs : s ≠ .verbatim) (x : String) :
    loweredWords (s.convert x) = (scan (s.spelled (words x.toList)).flatten).map lowered := by
  rw [loweredWords, words_eq_scan, CaseStyle.convert, String.toList_ofList, convertChars_eq hs]

theorem map_lowered_lowered (ws : List (List Char)) :
    (ws.map lowered).map lowered = ws.map lowered := by
  rw [List.map_map]
  exact List.map_congr_left fun w _ => lowered_lowered w

/-- A style with marks keeps the words. -/
theorem loweredWords_marked {s : CaseStyle} (hs : s ≠ .verbatim) (mark : Char)
    (hmark : isAlnum mark = false) (hfirst : s.first = lowered)
    (hfurther : s.further = fun w => mark :: lowered w) (x : String) :
    loweredWords (s.convert x) = loweredWords x := by
  have hwords : ∀ w ∈ words x.toList, IsWord w := fun _ => isWord_of_mem_words
  rw [loweredWords_convert hs, loweredWords]
  cases hx : words x.toList with
  | nil => rfl
  | cons w ws =>
      rw [hx] at hwords
      obtain ⟨hw, hws⟩ := List.forall_mem_cons.mp hwords
      have hspelled : (s.spelled (w :: ws)).flatten = lowered w ++ markedWords mark ws := by
        rw [CaseStyle.spelled, hfirst, hfurther, List.flatten_cons]
        rfl
      rw [hspelled, scan_lowered_append hw (not_isSmall_head_markedWords hmark ws),
        scan_markedWords hmark hws, List.map_cons, map_lowered_lowered, lowered_lowered,
        List.map_cons]

theorem loweredWords_snake (x : String) : loweredWords (CaseStyle.snake.convert x) = loweredWords x :=
  loweredWords_marked (by decide) '_' rfl rfl rfl x

theorem loweredWords_param (x : String) : loweredWords (CaseStyle.param.convert x) = loweredWords x :=
  loweredWords_marked (by decide) '-' rfl rfl rfl x

/-- Capitals keep the words exactly if no two neighbours fuse. -/
theorem loweredWords_pascal_iff (x : String) :
    loweredWords (CaseStyle.pascal.convert x) = loweredWords x ↔
      ¬ ∃ i, FusedAt (words x.toList) i := by
  have hwords : ∀ w ∈ words x.toList, IsWord w := fun _ => isWord_of_mem_words
  rw [← isChain_iff_not_fusedAt, ← scan_capitals_iff hwords, loweredWords_convert (by decide),
    loweredWords]
  cases hx : words x.toList with
  | nil => exact Iff.rfl
  | cons w ws =>
      rw [hx] at hwords
      have hscan := scan_capitals_cons (hwords w List.mem_cons_self) ws
      rw [hscan]
      rfl

/-- With a small first word only the others can fuse. -/
theorem loweredWords_camel_iff (x : String) :
    loweredWords (CaseStyle.camel.convert x) = loweredWords x ↔
      ¬ ∃ i, 1 ≤ i ∧ FusedAt (words x.toList) i := by
  have hwords : ∀ w ∈ words x.toList, IsWord w := fun _ => isWord_of_mem_words
  rw [loweredWords_convert (by decide), loweredWords]
  cases hx : words x.toList with
  | nil =>
      refine ⟨fun _ => ?_, fun _ => rfl⟩
      rintro ⟨i, -, w, v, hw, -⟩
      exact absurd hw (by simp)
  | cons w ws =>
      rw [hx] at hwords
      obtain ⟨hw, hws⟩ := List.forall_mem_cons.mp hwords
      have hscan : scan (CaseStyle.camel.spelled (w :: ws)).flatten =
          lowered w :: scan (capitals ws) :=
        scan_lowered_append hw (not_isSmall_head_capitals hws)
      rw [hscan, List.map_cons, List.map_cons, lowered_lowered, List.cons_inj_right,
        scan_capitals_iff hws, isChain_iff_not_fusedAt, fusedAt_cons_iff]

/-- **When a name may be converted twice.** With a mark between the words it makes no difference, what
    style comes next. With capitals it makes none exactly if no two neighbouring words fuse; a small
    first word fuses with none. So the styles with marks change nothing the second time, and those with
    capitals change nothing exactly on these names. -/
theorem reconvert_iff (x : String) :
    (∀ t : CaseStyle, t ≠ .verbatim →
      t.convert (CaseStyle.snake.convert x) = t.convert x ∧
      t.convert (CaseStyle.param.convert x) = t.convert x ∧
      (t.convert (CaseStyle.pascal.convert x) = t.convert x ↔
        ¬ ∃ i, FusedAt (words x.toList) i) ∧
      (t.convert (CaseStyle.camel.convert x) = t.convert x ↔
        ¬ ∃ i, 1 ≤ i ∧ FusedAt (words x.toList) i)) ∧
    CaseStyle.snake.convert (CaseStyle.snake.convert x) = CaseStyle.snake.convert x ∧
    CaseStyle.param.convert (CaseStyle.param.convert x) = CaseStyle.param.convert x ∧
    (CaseStyle.pascal.convert (CaseStyle.pascal.convert x) = CaseStyle.pascal.convert x ↔
      ¬ ∃ i, FusedAt (words x.toList) i) ∧
    (CaseStyle.camel.convert (CaseStyle.camel.convert x) = CaseStyle.camel.convert x ↔
      ¬ ∃ i, 1 ≤ i ∧ FusedAt (words x.toList) i) := by
  have hsnake : ∀ t : CaseStyle, t ≠ .verbatim →
      t.convert (CaseStyle.snake.convert x) = t.convert x := fun t ht =>
    (convert_eq_iff ht _ _).mpr (loweredWords_snake x)
  have hparam : ∀ t : CaseStyle, t ≠ .verbatim →
      t.convert (CaseStyle.param.convert x) = t.convert x := fun t ht =>
    (convert_eq_iff ht _ _).mpr (loweredWords_param x)
  have hpascal : ∀ t : CaseStyle, t ≠ .verbatim →
      (t.convert (CaseStyle.pascal.convert x) = t.convert x ↔
        ¬ ∃ i, FusedAt (words x.toList) i) := fun t ht =>
    (convert_eq_iff ht _ _).trans (loweredWords_pascal_iff x)
  have hcamel : ∀ t : CaseStyle, t ≠ .verbatim →
      (t.convert (CaseStyle.camel.convert x) = t.convert x ↔
        ¬ ∃ i, 1 ≤ i ∧ FusedAt (words x.toList) i) := fun t ht =>
    (convert_eq_iff ht _ _).trans (loweredWords_camel_iff x)
  refine ⟨fun t ht => ⟨hsnake t ht, hparam t ht, hpascal t ht, hcamel t ht⟩, ?_⟩
  exact ⟨hsnake .snake (by decide), hparam .param (by decide), hpascal .pascal (by decide),
    hcamel .camel (by decide)⟩

/-- Between capitals the words of `a_b_c` are lost, and a small first one does not save the other two.
    Of `a_b` both are kept behind a small first one. -/
theorem reconverted_letters :
    CaseStyle.snake ≠ .verbatim ∧
      CaseStyle.snake.convert (CaseStyle.pascal.convert "a_b_c") ≠ CaseStyle.snake.convert "a_b_c" ∧
      CaseStyle.snake.convert (CaseStyle.camel.convert "a_b_c") ≠ CaseStyle.snake.convert "a_b_c" ∧
      CaseStyle.snake.convert (CaseStyle.camel.convert "a_b") = CaseStyle.snake.convert "a_b" := by
  have hsnake : CaseStyle.snake ≠ .verbatim := by decide
  have hletters := (reconvert_iff "a_b_c").1 .snake hsnake
  have hwords : words "a_b_c".toList = [['a'], ['b'], ['c']] := by decide
  have hsecond : FusedAt (words "a_b_c".toList) 1 := by
    rw [hwords]
    exact ⟨['b'], ['c'], rfl, rfl, ⟨'b', rfl, rfl⟩, 'c', [], rfl, rfl, by simp⟩
  refine ⟨hsnake, ?_, ?_, ?_⟩
  · intro h
    exact hletters.2.2.1.mp h ⟨1, hsecond⟩
  · intro h
    exact hletters.2.2.2.mp h ⟨1, Nat.le_refl 1, hsecond⟩
  · have hpair : words "a_b".toList = [['a'], ['b']] := by decide
    refine ((reconvert_iff "a_b").1 .snake hsnake).2.2.2.mpr ?_
    rintro ⟨i, hi, w, v, -, hv, -⟩
    rw [hpair, List.getElem?_eq_none (by simp; omega)] at hv
    exact nomatch hv

end Scaffold.Naming
