import Mathlib.Data.List.TakeWhile
import Scaffold.Naming.Words
import Scaffold.Proofs.Text.Letters

/-!
# `Scaffold.Proofs.Naming.Words` — where an identifier is cut

The words of an identifier come from three rewritings, each of which searches a text that the one
before has put spaces into. Here they are shown to do no more than one scan does that looks at a
character and the two after it (`words_eq_scan`): no pair is missed because its first character was
taken with the pair before, and no space makes or hides a pair. So the words are the rows of letters
and digits, cut where a capital begins a word and nowhere else (`words_cut`).

## Contents
- **Cuts.** `isHump`, `isAcronym`, `isCut`; `opened`, `openHumps_eq`, `openAcronyms_eq`,
  `opened_opened`.
- **Runs.** `runs_cons`, `runs_blankMarks`.
- **One scan.** `goesOn`, `scan`, `words_eq_scan`, `IsWord`, `isWord_of_mem_words`, `flatten_scan`.
- **Rows.** `alnumRows`, `cutRow`, `scan_eq_rows`, `words_cut`.
-/

namespace Scaffold.Naming

open Text

/-! ## Cuts -/

/-- A capital follows `c`, which is a small letter or a digit; `r` is what comes after `c`. -/
def isHump (c : Char) : (r : List Char) → Bool
  | d :: _ => (isLower c || isDigit c) && isUpper d
  | [] => false

/-- A capital follows `c`, which is one itself, and after it comes a small letter. -/
def isAcronym (c : Char) : (r : List Char) → Bool
  | d :: e :: _ => isUpper c && isUpper d && isLower e
  | _ => false

/-- A word ends with `c` although the character after it is a letter. -/
def isCut (c : Char) (r : List Char) : Bool := isHump c r || isAcronym c r

/-- A text with a space after every character that `cut` chooses. -/
def opened (cut : Char → List Char → Bool) : List Char → List Char
  | [] => []
  | c :: r => if cut c r then c :: ' ' :: opened cut r else c :: opened cut r

theorem not_isHump_of_isUpper {c : Char} (h : isUpper c = true) (r : List Char) :
    isHump c r = false := by
  cases r with
  | nil => rfl
  | cons d r => simp [isHump, not_isLower_of_isUpper h, not_isDigit_of_isUpper h]

theorem not_isAcronym_of_not_isUpper {c : Char} (h : isUpper c = false) (r : List Char) :
    isAcronym c r = false := by
  rcases r with _ | ⟨d, _ | ⟨e, r⟩⟩ <;> simp [isAcronym, h]

/-- Where the next character is no capital, nothing is cut. -/
theorem not_isCut_of_not_isUpper {c d : Char} (h : isUpper d = false) (r : List Char) :
    isCut c (d :: r) = false := by
  cases r <;> simp [isCut, isHump, isAcronym, h]

/-- **Taking pairs as a whole misses none**: the capital of a pair begins no other one. -/
theorem openHumps_eq (cs : List Char) : openHumps cs = opened isHump cs := by
  fun_induction openHumps cs with
  | case1 c d r hpair ih =>
      have hhump : isHump c (d :: r) = true := hpair
      have hupper : isUpper d = true := (Bool.and_eq_true_iff.mp hpair).2
      simp [opened, hhump, not_isHump_of_isUpper hupper, ih]
  | case2 c d r hpair ih =>
      have hhump : isHump c (d :: r) = false := Bool.eq_false_iff.mpr hpair
      rw [ih, opened.eq_2 _ c, hhump]
      rfl
  | case3 cs hshort =>
      rcases cs with _ | ⟨c, _ | ⟨d, r⟩⟩
      · rfl
      · simp [opened, isHump]
      · exact absurd rfl (hshort c d r)

/-- **Taking three characters as a whole misses no cut**: neither of the last two begins another one,
    since a small letter ends them. -/
theorem openAcronyms_eq (cs : List Char) : openAcronyms cs = opened isAcronym cs := by
  fun_induction openAcronyms cs with
  | case1 c d e r hthree ih =>
      have hacronym : isAcronym c (d :: e :: r) = true := hthree
      have hlower : isLower e = true := (Bool.and_eq_true_iff.mp hthree).2
      have hupper : isUpper e = false := not_isUpper_of_isLower hlower
      have hsecond : isAcronym d (e :: r) = false := by
        cases r <;> simp [isAcronym, hupper]
      simp [opened, hacronym, hsecond, not_isAcronym_of_not_isUpper hupper, ih]
  | case2 c d e r hthree ih =>
      have hacronym : isAcronym c (d :: e :: r) = false := Bool.eq_false_iff.mpr hthree
      rw [ih, opened.eq_2 _ c, hacronym]
      rfl
  | case3 cs hshort =>
      rcases cs with _ | ⟨c, _ | ⟨d, _ | ⟨e, r⟩⟩⟩
      · rfl
      · simp [opened, isAcronym]
      · simp [opened, isAcronym]
      · exact absurd rfl (hshort c d e r)

/-- The spaces of the first rewriting stand where the second one does not look. -/
theorem isAcronym_opened (c : Char) (r : List Char) :
    isAcronym c (opened isHump r) = isAcronym c r := by
  rcases r with _ | ⟨d, _ | ⟨e, r⟩⟩
  · rfl
  · simp [opened, isHump, isAcronym]
  · by_cases hupper : isUpper d = true
    · rw [opened, if_neg (by rw [not_isHump_of_isUpper hupper]; exact Bool.false_ne_true), opened]
      split <;> rfl
    · rw [opened]
      split <;> rw [opened] <;> split <;> simp [isAcronym, hupper]

/-- **Two rewritings cut as one does.** -/
theorem opened_opened (cs : List Char) :
    opened isAcronym (opened isHump cs) = opened isCut cs := by
  induction cs with
  | nil => rfl
  | cons c r ih =>
      by_cases hhump : isHump c r = true
      · -- `c` is no capital, nor is the space after it
        have hc : isAcronym c (' ' :: opened isHump r) = false := by
          cases opened isHump r <;> simp [isAcronym, show isUpper ' ' = false from rfl]
        have hspace : isAcronym ' ' (opened isHump r) = false :=
          not_isAcronym_of_not_isUpper rfl _
        simp [opened, isCut, hhump, hc, hspace, ih]
      · simp [opened, isCut, hhump, isAcronym_opened, ih]

/-! ## Runs -/

theorem runs_ne_nil {keep : Char → Bool} {r : List Char} (h : r.head?.any keep = true) :
    runs keep r ≠ [] := by
  cases r with
  | nil => exact absurd h (by simp)
  | cons c r =>
      rw [List.head?_cons, Option.any_some] at h
      unfold runs
      rw [if_pos h]
      split
      · split <;> exact List.cons_ne_nil _ _
      · exact List.cons_ne_nil _ _

/-- A character that is kept goes to the run of the next one, or is a run of its own. -/
theorem runs_cons {keep : Char → Bool} {c : Char} (hc : keep c = true) (r : List Char) :
    runs keep (c :: r) =
      if r.head?.any keep then (runs keep r).modifyHead (c :: ·) else [c] :: runs keep r := by
  conv => lhs; unfold runs
  rw [if_pos hc]
  cases r with
  | nil => rfl
  | cons d r =>
      rw [List.head?_cons, Option.any_some]
      by_cases hd : keep d = true
      · have hne : runs keep (d :: r) ≠ [] := runs_ne_nil hd
        obtain ⟨w, ws, hruns⟩ := List.exists_cons_of_ne_nil hne
        simp only [hruns, hd, if_true, List.modifyHead_cons]
      · rw [if_neg hd]
        cases runs keep (d :: r) with
        | nil => rfl
        | cons w ws => exact if_neg hd

theorem runs_cons_of_not {keep : Char → Bool} {c : Char} (hc : keep c = false) (r : List Char) :
    runs keep (c :: r) = runs keep r := by
  conv => lhs; unfold runs
  rw [if_neg (by rw [hc]; exact Bool.false_ne_true)]

/-- **Spaces in place of the marks leave the runs as they were.** -/
theorem runs_blankMarks (inRow : Bool) (cs : List Char) :
    runs (fun c => !isBlank c) (blankMarks inRow cs) = runs isAlnum cs := by
  induction cs generalizing inRow with
  | nil => rfl
  | cons c r ih =>
      by_cases hc : isAlnum c = true
      · have hkept : (fun c => !isBlank c) c = true := by simp [not_isBlank_of_isAlnum hc]
        -- the next character is kept exactly if it is a letter or a digit
        have hnext : (blankMarks false r).head?.any (fun c => !isBlank c) = r.head?.any isAlnum := by
          cases r with
          | nil => rfl
          | cons d r =>
              by_cases hd : isAlnum d = true
              · simp [blankMarks, hd, not_isBlank_of_isAlnum hd]
              · simp [blankMarks, hd, show isBlank ' ' = true from rfl]
        rw [blankMarks, if_pos hc, runs_cons hkept, runs_cons hc, hnext, ih]
      · have hspace : (fun c => !isBlank c) ' ' = false := rfl
        rw [runs_cons_of_not (Bool.eq_false_iff.mpr hc), blankMarks, if_neg hc]
        cases inRow with
        | true => exact ih true
        | false => exact (runs_cons_of_not hspace _).trans (ih true)

/-! ## One scan -/

/-- The word of `c` goes on with the next character. -/
def goesOn (c : Char) (r : List Char) : Bool := r.head?.any isAlnum && !isCut c r

/-- The words of a text in one scan. -/
def scan : List Char → List (List Char)
  | [] => []
  | c :: r =>
    if isAlnum c then
      if goesOn c r then (scan r).modifyHead (c :: ·) else [c] :: scan r
    else scan r

theorem scan_ne_nil {r : List Char} (h : r.head?.any isAlnum = true) : scan r ≠ [] := by
  induction r with
  | nil => exact absurd h (by simp)
  | cons c r ih =>
      rw [List.head?_cons, Option.any_some] at h
      rw [scan, if_pos h]
      split
      · rename_i hon
        have hr := ih (Bool.and_eq_true_iff.mp hon).1
        obtain ⟨w, ws, hw⟩ := List.exists_cons_of_ne_nil hr
        rw [hw]
        simp
      · simp

theorem scan_of_goesOn {c : Char} {r : List Char} (hc : isAlnum c = true)
    (h : goesOn c r = true) : ∃ w ws, scan r = w :: ws ∧ scan (c :: r) = (c :: w) :: ws := by
  obtain ⟨w, ws, hw⟩ := List.exists_cons_of_ne_nil (scan_ne_nil (Bool.and_eq_true_iff.mp h).1)
  refine ⟨w, ws, hw, ?_⟩
  rw [scan, if_pos hc, if_pos h, hw]
  rfl

theorem scan_of_not_goesOn {c : Char} {r : List Char} (hc : isAlnum c = true)
    (h : goesOn c r = false) : scan (c :: r) = [c] :: scan r := by
  rw [scan, if_pos hc, if_neg (by rw [h]; exact Bool.false_ne_true)]

theorem scan_of_not_isAlnum {c : Char} (hc : isAlnum c = false) (r : List Char) :
    scan (c :: r) = scan r := by
  rw [scan, if_neg (by rw [hc]; exact Bool.false_ne_true)]

/-- Only letters and digits have a cut after them. -/
theorem isAlnum_of_isCut {c : Char} {r : List Char} (h : isCut c r = true) : isAlnum c = true := by
  rcases r with _ | ⟨d, _ | ⟨e, r⟩⟩ <;>
    simp only [isCut, isHump, isAcronym, Bool.or_eq_true, Bool.and_eq_true] at h <;>
    simp only [isAlnum, Bool.or_eq_true] <;> grind

theorem head?_opened (cut : Char → List Char → Bool) (r : List Char) :
    (opened cut r).head? = r.head? := by
  cases r with
  | nil => rfl
  | cons c r =>
      rw [opened]
      split <;> rfl

theorem runs_opened (cs : List Char) : runs isAlnum (opened isCut cs) = scan cs := by
  induction cs with
  | nil => rfl
  | cons c r ih =>
      by_cases hc : isAlnum c = true
      · by_cases hcut : isCut c r = true
        · have hspace : runs isAlnum (' ' :: opened isCut r) = scan r :=
            (runs_cons_of_not rfl _).trans ih
          rw [opened, if_pos hcut, runs_cons hc, if_neg (by simp [show isAlnum ' ' = false from rfl]),
            hspace, scan_of_not_goesOn hc (by simp [goesOn, hcut])]
        · rw [opened, if_neg hcut, runs_cons hc, head?_opened, ih, scan, if_pos hc]
          simp [goesOn, hcut]
      · have hcut : ¬ isCut c r = true := fun h => hc (isAlnum_of_isCut h)
        rw [opened, if_neg hcut, runs_cons_of_not (Bool.eq_false_iff.mpr hc), ih, scan, if_neg hc]

/-- **The words of an identifier come from one scan.** -/
theorem words_eq_scan (name : List Char) : words name = scan name := by
  calc words name
      = runs isAlnum (openAcronyms (openHumps name)) := runs_blankMarks false _
    _ = runs isAlnum (opened isCut name) := by
        rw [openHumps_eq, openAcronyms_eq, opened_opened]
    _ = scan name := runs_opened name

/-- A word of letters and digits. -/
structure IsWord (w : List Char) : Prop where
  nonempty : w ≠ []
  alnum : ∀ c ∈ w, isAlnum c = true

theorem isWord_of_mem_scan {cs w : List Char} (h : w ∈ scan cs) : IsWord w := by
  induction cs generalizing w with
  | nil => exact absurd h List.not_mem_nil
  | cons c r ih =>
      by_cases hc : isAlnum c = true
      · by_cases hon : goesOn c r = true
        · obtain ⟨v, vs, hr, hcr⟩ := scan_of_goesOn hc hon
          rw [hcr] at h
          rcases List.mem_cons.mp h with rfl | h
          · refine ⟨List.cons_ne_nil _ _, ?_⟩
            exact List.forall_mem_cons.mpr ⟨hc, (ih (hr ▸ List.mem_cons_self)).alnum⟩
          · exact ih (hr ▸ List.mem_cons_of_mem _ h)
        · rw [scan_of_not_goesOn hc (Bool.eq_false_iff.mpr hon)] at h
          rcases List.mem_cons.mp h with rfl | h
          · exact ⟨List.cons_ne_nil _ _, by simpa using hc⟩
          · exact ih h
      · rw [scan_of_not_isAlnum (Bool.eq_false_iff.mpr hc)] at h
        exact ih h

theorem isWord_of_mem_words {name w : List Char} (h : w ∈ words name) : IsWord w :=
  isWord_of_mem_scan (words_eq_scan name ▸ h)

/-- A scan loses no letter and no digit, and keeps their order. -/
theorem flatten_scan (cs : List Char) : (scan cs).flatten = cs.filter isAlnum := by
  induction cs with
  | nil => rfl
  | cons c r ih =>
      by_cases hc : isAlnum c = true
      · rw [List.filter_cons_of_pos hc, ← ih]
        by_cases hon : goesOn c r = true
        · obtain ⟨w, ws, hr, hcr⟩ := scan_of_goesOn hc hon
          rw [hcr, hr]
          rfl
        · rw [scan_of_not_goesOn hc (Bool.eq_false_iff.mpr hon)]
          rfl
      · rw [scan_of_not_isAlnum (Bool.eq_false_iff.mpr hc), List.filter_cons_of_neg hc, ih]

/-! ## Rows -/

/-- The maximal rows of letters and digits. -/
def alnumRows (name : List Char) : List (List Char) :=
  (name.splitOnP fun c => !isAlnum c).filter (· ≠ [])

/-- A row, cut after each character that a word ends with. What a cut looks at beyond its two characters
    is a small letter, and so in the row if it is there at all (`isCut_takeWhile`). -/
def cutRow : List Char → List (List Char)
  | [] => []
  | [c] => [[c]]
  | c :: d :: r => if isCut c (d :: r) then [c] :: cutRow (d :: r) else (cutRow (d :: r)).modifyHead (c :: ·)

/-- The row that a text begins with comes first. -/
theorem splitOnP_eq (cs : List Char) : ∃ rows,
    (cs.splitOnP fun c => !isAlnum c) = cs.takeWhile isAlnum :: rows := by
  induction cs with
  | nil => exact ⟨[], rfl⟩
  | cons c r ih =>
      rw [List.splitOnP_cons_eq_if_modifyHead]
      by_cases hc : isAlnum c = true
      · obtain ⟨rows, hr⟩ := ih
        exact ⟨rows, by simp [hc, hr]⟩
      · exact ⟨r.splitOnP fun c => !isAlnum c, by simp [hc]⟩

/-- Whether a word ends is seen within the row. -/
theorem isCut_takeWhile (c : Char) (r : List Char) : isCut c (r.takeWhile isAlnum) = isCut c r := by
  rcases r with _ | ⟨d, r⟩
  · rfl
  · by_cases hd : isAlnum d = true
    · rcases r with _ | ⟨e, r⟩
      · simp [hd]
      · by_cases he : isAlnum e = true
        · simp [hd, he, isCut, isHump, isAcronym]
        · have hlower : isLower e = false := by
            rw [← Bool.not_eq_true]
            exact fun h => he (isAlnum_of_isLower h)
          simp [hd, he, isCut, isHump, isAcronym, hlower]
    · have hupper : isUpper d = false := by
        rw [← Bool.not_eq_true]
        exact fun h => hd (isAlnum_of_isUpper h)
      rw [not_isCut_of_not_isUpper hupper, List.takeWhile_cons_of_neg hd]
      rfl

theorem goesOn_takeWhile (c : Char) (r : List Char) :
    goesOn c (r.takeWhile isAlnum) = goesOn c r := by
  have hnext : (r.takeWhile isAlnum).head?.any isAlnum = r.head?.any isAlnum := by
    cases r with
    | nil => rfl
    | cons d r => by_cases hd : isAlnum d = true <;> simp [hd]
  rw [goesOn, goesOn, isCut_takeWhile, hnext]

theorem cutRow_ne_nil {r : List Char} (h : r ≠ []) : cutRow r ≠ [] := by
  induction r with
  | nil => exact absurd rfl h
  | cons c r ih =>
      cases r with
      | nil => exact List.cons_ne_nil _ _
      | cons d r =>
          have hr := ih (List.cons_ne_nil d r)
          obtain ⟨w, ws, hw⟩ := List.exists_cons_of_ne_nil hr
          rw [cutRow, hw]
          split <;> exact List.cons_ne_nil _ _

/-- A row goes on as the scan does. -/
theorem cutRow_cons (c : Char) {r : List Char} (hr : ∀ d ∈ r, isAlnum d = true) :
    cutRow (c :: r) =
      if goesOn c r then (cutRow r).modifyHead (c :: ·) else [c] :: cutRow r := by
  cases r with
  | nil => rfl
  | cons d r =>
      have hd : isAlnum d = true := hr d List.mem_cons_self
      by_cases hcut : isCut c (d :: r) = true <;> simp [cutRow, goesOn, hcut, hd]

/-- Rows without characters have no words. -/
theorem flatMap_alnumRows (name : List Char) :
    (alnumRows name).flatMap cutRow = (name.splitOnP fun c => !isAlnum c).flatMap cutRow := by
  unfold alnumRows
  induction name.splitOnP fun c => !isAlnum c with
  | nil => rfl
  | cons w ws ih =>
      by_cases hw : w = []
      · rw [List.filter_cons_of_neg (by simp [hw]), ih, hw]
        rfl
      · rw [List.filter_cons_of_pos (by simp [hw]), List.flatMap_cons, List.flatMap_cons, ih]

/-- **One scan cuts the rows of letters and digits.** -/
theorem scan_eq_rows (cs : List Char) : scan cs = (alnumRows cs).flatMap cutRow := by
  rw [flatMap_alnumRows]
  induction cs with
  | nil => rfl
  | cons c r ih =>
      obtain ⟨rows, hrows⟩ := splitOnP_eq r
      rw [List.splitOnP_cons_eq_if_modifyHead]
      by_cases hc : isAlnum c = true
      · -- the character goes in front of the row that the rest begins with
        have hrow : ∀ d ∈ r.takeWhile isAlnum, isAlnum d = true := fun d hd =>
          List.mem_takeWhile_imp hd
        rw [hrows, List.flatMap_cons] at ih
        rw [if_neg (by simp [hc]), hrows, List.modifyHead_cons, List.flatMap_cons,
          cutRow_cons c hrow, goesOn_takeWhile]
        by_cases hon : goesOn c r = true
        · have hne : r.takeWhile isAlnum ≠ [] := by
            cases r with
            | nil => exact absurd hon (by simp [goesOn])
            | cons d r =>
                have hd : isAlnum d = true := (Bool.and_eq_true_iff.mp hon).1
                simp [hd]
          obtain ⟨w, ws, hw⟩ := List.exists_cons_of_ne_nil (cutRow_ne_nil hne)
          rw [scan, if_pos hc, if_pos hon, if_pos hon, ih, hw]
          rfl
        · rw [scan, if_pos hc, if_neg hon, if_neg hon, ih]
          rfl
      · rw [scan, if_neg hc, if_pos (by simp [hc]), ih]
        rfl

/-! ## The words of an identifier -/

/-- **The words of an identifier are its rows of letters and digits, cut where a capital begins a
    word**: after a small letter or a digit, and after a capital if a small letter comes next. So no
    word is empty, all are letters and digits, and together they are what the name has of these, in
    order. -/
theorem words_cut (name : List Char) :
    words name = (alnumRows name).flatMap cutRow ∧
      (∀ w ∈ words name, w ≠ [] ∧ ∀ c ∈ w, isAlnum c = true) ∧
      (words name).flatten = name.filter isAlnum := by
  have hscan : words name = scan name := words_eq_scan name
  refine ⟨hscan.trans (scan_eq_rows name), ?_, ?_⟩
  · intro w hw
    have hword := isWord_of_mem_words hw
    exact ⟨hword.nonempty, hword.alnum⟩
  · rw [hscan]
    exact flatten_scan name

/-- Rows of capitals, digits before capitals and marks. -/
example : words "XMLHttpRequest-order2Item_9".toList =
    ["XML".toList, "Http".toList, "Request".toList, "order2".toList, "Item".toList, "9".toList] := by
  decide

end Scaffold.Naming
