import Scaffold.Text.Lines

/-!
# `Scaffold.Proofs.Text.Break` — the lines of a text, whatever ends them

Templates end their lines as the platform does, files as their options say. `linesOf` reads both: it
takes every break for one line feed and cuts there. Rewriting breaks goes through a text from line to
line (`recast_ending_append`), so that what stands on a line is left as it is.

## Contents
- **Lines.** `OneLine`, `IsLineEnding`, `linesOf`.
- **Cutting.** `splitOn_append_cons`, `splitOn_of_not_mem`.
- **Replacing.** How `replaceBreaks` goes through a text: `replaceBreaks_oneLine_append`,
  `replaceBreaks_append_cons`, `replaceBreaks_ending_append`, `replaceBreaks_append_break`.
- **Reading.** `linesOf_eol_append`, `mem_linesOf`.
- **Normalizing.** `recast`, `normalize_eq`, `recast_ending_append`.
-/

namespace Scaffold.Text

/-- No character of the text ends a line. -/
def OneLine (cs : List Char) : Prop := ∀ c ∈ cs, c ≠ '\n' ∧ c ≠ '\r'

/-- The line endings that platforms have. -/
def IsLineEnding (s : String) : Prop := s = "\n" ∨ s = "\r\n" ∨ s = "\r"

/-- The lines of a text: what stands between its breaks. -/
def linesOf (cs : List Char) : List (List Char) := splitOn '\n' (replaceBreaks ['\n'] cs)

instance (cs : List Char) : Decidable (OneLine cs) :=
  List.decidableBAll (fun c => c ≠ '\n' ∧ c ≠ '\r') cs

theorem OneLine.append {a b : List Char} (ha : OneLine a) (hb : OneLine b) : OneLine (a ++ b) := by
  intro c hc
  rcases List.mem_append.mp hc with h | h
  · exact ha c h
  · exact hb c h

theorem OneLine.not_mem {a : List Char} (ha : OneLine a) : '\n' ∉ a :=
  fun h => (ha '\n' h).1 rfl

/-! ## Cutting -/

theorem splitOn_ne_nil (c : Char) (cs : List Char) : splitOn c cs ≠ [] := by
  cases cs with
  | nil => simp [splitOn]
  | cons d r =>
      simp only [splitOn]
      split
      · simp
      · split <;> simp

/-- A cut at `c` belongs to neither side. -/
theorem splitOn_append_cons (c : Char) (a b : List Char) :
    splitOn c (a ++ c :: b) = splitOn c a ++ splitOn c b := by
  induction a with
  | nil => simp [splitOn]
  | cons d r ih =>
      by_cases h : d = c
      · subst h
        simp only [List.cons_append, splitOn, if_true, ih]
      · simp only [List.cons_append, splitOn, if_neg h, ih]
        -- a cut is a piece more, so there is a first one for `d` to join
        cases hs : splitOn c r with
        | nil => exact absurd hs (splitOn_ne_nil c r)
        | cons w ws => rfl

theorem splitOn_of_not_mem {c : Char} {a : List Char} (h : c ∉ a) : splitOn c a = [a] := by
  induction a with
  | nil => rfl
  | cons d r ih =>
      have hd : d ≠ c := fun e => h (e ▸ List.mem_cons_self)
      have hr : c ∉ r := fun m => h (List.mem_cons_of_mem _ m)
      simp only [splitOn, if_neg hd, ih hr]

/-- No piece holds the character it was cut at. -/
theorem not_mem_of_mem_splitOn {c : Char} {cs w : List Char} (h : w ∈ splitOn c cs) : c ∉ w := by
  induction cs generalizing w with
  | nil =>
      rw [splitOn, List.mem_singleton] at h
      simp [h]
  | cons d r ih =>
      rw [splitOn] at h
      split at h
      · rcases List.mem_cons.mp h with rfl | h
        · simp
        · exact ih h
      · rename_i hd
        split at h
        · rw [List.mem_singleton] at h
          subst h
          simpa using Ne.symm hd
        · rename_i v vs hs
          rcases List.mem_cons.mp h with rfl | h
          · have hv : c ∉ v := ih (hs ▸ List.mem_cons_self)
            simpa using ⟨Ne.symm hd, hv⟩
          · exact ih (hs ▸ List.mem_cons_of_mem _ h)

/-- Every character of a piece is one of the text. -/
theorem mem_of_mem_splitOn {c : Char} {cs w : List Char} (h : w ∈ splitOn c cs) : ∀ d ∈ w, d ∈ cs := by
  induction cs generalizing w with
  | nil =>
      rw [splitOn, List.mem_singleton] at h
      simp [h]
  | cons e r ih =>
      intro d hd
      rw [splitOn] at h
      split at h
      · rcases List.mem_cons.mp h with rfl | h
        · exact absurd hd (by simp)
        · exact List.mem_cons_of_mem _ (ih h d hd)
      · split at h
        · rw [List.mem_singleton] at h
          subst h
          rw [List.mem_singleton] at hd
          exact hd ▸ List.mem_cons_self
        · rename_i v vs hs
          rcases List.mem_cons.mp h with rfl | h
          · rcases List.mem_cons.mp hd with rfl | hd
            · exact List.mem_cons_self
            · exact List.mem_cons_of_mem _ (ih (hs ▸ List.mem_cons_self) d hd)
          · exact List.mem_cons_of_mem _ (ih (hs ▸ List.mem_cons_of_mem _ h) d hd)

/-- The last piece of a text ends as the text does, and the pieces before it do not change. -/
theorem exists_splitOn_append {c : Char} {e : List Char} (h : c ∉ e) (cs : List Char) :
    ∃ front last, splitOn c cs = front ++ [last] ∧ splitOn c (cs ++ e) = front ++ [last ++ e] := by
  induction cs with
  | nil => exact ⟨[], [], rfl, splitOn_of_not_mem h⟩
  | cons d r ih =>
      obtain ⟨front, last, hr, hre⟩ := ih
      rw [List.cons_append, splitOn, splitOn, hr, hre]
      split
      · exact ⟨[] :: front, last, rfl, rfl⟩
      · cases front with
        | nil => exact ⟨[], d :: last, rfl, rfl⟩
        | cons w ws => exact ⟨(d :: w) :: ws, last, rfl, rfl⟩

/-! ## Replacing -/

variable {t : List Char}

theorem replaceBreaks_cons {c : Char} (hn : c ≠ '\n') (hr : c ≠ '\r') (r : List Char) :
    replaceBreaks t (c :: r) = c :: replaceBreaks t r := by
  rw [replaceBreaks]
  · rw [if_neg (by simp [hn, hr])]
  · intro r' hc _
    exact hr hc

theorem replaceBreaks_newline (r : List Char) :
    replaceBreaks t ('\n' :: r) = t ++ replaceBreaks t r := by
  rw [replaceBreaks]
  · simp
  · intro r' hc _
    exact absurd hc (by decide)

theorem replaceBreaks_return {r : List Char} (h : r.head? ≠ some '\n') :
    replaceBreaks t ('\r' :: r) = t ++ replaceBreaks t r := by
  rw [replaceBreaks]
  · simp
  · intro r' _ hr
    exact h (by rw [hr]; rfl)

theorem replaceBreaks_return_newline (r : List Char) :
    replaceBreaks t ('\r' :: '\n' :: r) = t ++ replaceBreaks t r := by
  rw [replaceBreaks]

/-- A part on one line stays as it is. -/
theorem replaceBreaks_oneLine_append {a : List Char} (ha : OneLine a) (b : List Char) :
    replaceBreaks t (a ++ b) = a ++ replaceBreaks t b := by
  induction a with
  | nil => rfl
  | cons c r ih =>
      have hc := ha c List.mem_cons_self
      rw [List.cons_append, replaceBreaks_cons hc.1 hc.2,
        ih (fun d hd => ha d (List.mem_cons_of_mem _ hd))]
      rfl

/-- A character that ends no line keeps apart what stands before and after it. -/
theorem replaceBreaks_append_cons {c : Char} (hn : c ≠ '\n') (hr : c ≠ '\r') (a b : List Char) :
    replaceBreaks t (a ++ c :: b) = replaceBreaks t a ++ c :: replaceBreaks t b := by
  fun_induction replaceBreaks t a with
  | case1 => exact replaceBreaks_cons hn hr b
  | case2 r ih => rw [List.cons_append, List.cons_append, replaceBreaks_return_newline, ih,
      List.append_assoc]
  | case3 d r hd hbreak ih =>
      rcases hbreak with rfl | rfl
      · rw [List.cons_append, replaceBreaks_newline, ih, List.append_assoc]
      · rw [List.cons_append, replaceBreaks_return, ih, List.append_assoc]
        -- `c` is no line feed that would belong to the carriage return
        cases r with
        | nil => simpa using hn
        | cons e s =>
            intro he
            exact hd s rfl (by simpa using he)
  | case4 d r hd hbreak ih =>
      rw [not_or] at hbreak
      rw [List.cons_append, replaceBreaks_cons hbreak.1 hbreak.2, ih, List.cons_append]

/-- What follows a line ending does not belong to it, as a line feed after a carriage return would. -/
def Apart (p : String) (b : List Char) : Prop := p = "\r" → b.head? ≠ some '\n'

/-- A line ending becomes one break. -/
theorem replaceBreaks_ending_append {p : String} (hp : IsLineEnding p) {b : List Char}
    (hb : Apart p b) : replaceBreaks t (p.toList ++ b) = t ++ replaceBreaks t b := by
  rcases hp with rfl | rfl | rfl
  · exact replaceBreaks_newline b
  · exact replaceBreaks_return_newline b
  · exact replaceBreaks_return (hb rfl)

/-- What ends with a break ends with the new one. -/
theorem replaceBreaks_append_break {c : Char} (hc : c = '\n' ∨ c = '\r') (a : List Char) :
    ∃ p, replaceBreaks t (a ++ [c]) = p ++ t := by
  have hone : replaceBreaks t [c] = t := by
    rcases hc with rfl | rfl
    · rw [replaceBreaks_newline, replaceBreaks, List.append_nil]
    · rw [replaceBreaks_return (by simp), replaceBreaks, List.append_nil]
  fun_induction replaceBreaks t a with
  | case1 => exact ⟨[], hone⟩
  | case2 r ih =>
      obtain ⟨p, hp⟩ := ih
      exact ⟨t ++ p, by rw [List.cons_append, List.cons_append, replaceBreaks_return_newline, hp,
        List.append_assoc]⟩
  | case3 d r hd hbreak ih =>
      obtain ⟨p, hp⟩ := ih
      rcases hbreak with rfl | rfl
      · exact ⟨t ++ p, by rw [List.cons_append, replaceBreaks_newline, hp, List.append_assoc]⟩
      · by_cases hlast : r = [] ∧ c = '\n'
        · obtain ⟨rfl, rfl⟩ := hlast
          exact ⟨[], by rw [List.cons_append, List.nil_append, replaceBreaks_return_newline,
            replaceBreaks, List.append_nil, List.nil_append]⟩
        · refine ⟨t ++ p, ?_⟩
          rw [List.cons_append, replaceBreaks_return, hp, List.append_assoc]
          cases r with
          | nil => simpa using fun e => hlast ⟨rfl, e⟩
          | cons e s =>
              intro he
              exact hd s rfl (by simpa using he)
  | case4 d r hd hbreak ih =>
      obtain ⟨p, hp⟩ := ih
      rw [not_or] at hbreak
      exact ⟨d :: p, by rw [List.cons_append, replaceBreaks_cons hbreak.1 hbreak.2, hp,
        List.cons_append]⟩

/-! ## Reading -/

theorem replaceBreaks_eol_append (e : Eol) (b : List Char) :
    replaceBreaks t (e.sequence.toList ++ b) = t ++ replaceBreaks t b := by
  cases e with
  | lf => exact replaceBreaks_newline b
  | crlf => exact replaceBreaks_return_newline b

/-- A line between two line endings is one of the lines of the text, whatever stands around it. -/
theorem mem_linesOf {l : List Char} (hl : OneLine l) (hne : l ≠ []) (e : Eol) (a b : List Char) :
    l ∈ linesOf (a ++ e.sequence.toList ++ l ++ e.sequence.toList ++ b) := by
  -- the ending before the line may be part of a break that begins in `a`, so only its end is used
  obtain ⟨p, hp⟩ : ∃ p, replaceBreaks ['\n'] (a ++ e.sequence.toList) = p ++ ['\n'] := by
    cases e with
    | lf => exact replaceBreaks_append_break (Or.inl rfl) a
    | crlf =>
        rw [show a ++ Eol.crlf.sequence.toList = (a ++ ['\r']) ++ ['\n'] by simp [Eol.sequence]]
        exact replaceBreaks_append_break (Or.inl rfl) (a ++ ['\r'])
  cases l with
  | nil => exact absurd rfl hne
  | cons d r =>
      have hd := hl d List.mem_cons_self
      have hr : OneLine r := fun c hc => hl c (List.mem_cons_of_mem _ hc)
      have htext : replaceBreaks ['\n']
          (a ++ e.sequence.toList ++ d :: r ++ e.sequence.toList ++ b)
          = p ++ '\n' :: ((d :: r) ++ '\n' :: replaceBreaks ['\n'] b) := by
        rw [List.append_assoc (a ++ e.sequence.toList ++ d :: r), List.append_assoc,
          List.cons_append, replaceBreaks_append_cons hd.1 hd.2, hp,
          replaceBreaks_oneLine_append hr, replaceBreaks_eol_append]
        simp
      unfold linesOf
      rw [htext, splitOn_append_cons, splitOn_append_cons, splitOn_of_not_mem hl.not_mem]
      simp

/-- A line at the front of a text whose line ending was chosen. -/
theorem linesOf_eol_append {l : List Char} (hl : OneLine l) (e : Eol) (b : List Char) :
    linesOf (l ++ (e.sequence.toList ++ b)) = l :: linesOf b := by
  unfold linesOf
  rw [replaceBreaks_oneLine_append hl, replaceBreaks_eol_append, List.cons_append,
    List.nil_append, splitOn_append_cons, splitOn_of_not_mem hl.not_mem]
  rfl

/-! ## Normalizing -/

/-- What `normalize` does to the characters of a text. -/
def recast (e : Eol) (platform : String) (cs : List Char) : List Char :=
  if platform = e.sequence then cs else replaceBreaks e.sequence.toList cs

theorem normalize_eq (text : String) (e : Eol) (platform : String) :
    normalize text e platform = String.ofList (recast e platform text.toList) := by
  unfold normalize recast
  split
  · exact String.ofList_toList.symm
  · rfl

variable {e : Eol} {p : String}

theorem recast_oneLine_append {a : List Char} (ha : OneLine a) (b : List Char) :
    recast e p (a ++ b) = a ++ recast e p b := by
  unfold recast
  split
  · rfl
  · exact replaceBreaks_oneLine_append ha b

theorem recast_append_cons {c : Char} (hn : c ≠ '\n') (hr : c ≠ '\r') (a b : List Char) :
    recast e p (a ++ c :: b) = recast e p a ++ c :: recast e p b := by
  unfold recast
  split
  · rfl
  · exact replaceBreaks_append_cons hn hr a b

/-- A line ending of the platform becomes the one that was chosen. -/
theorem recast_ending_append (hp : IsLineEnding p) {b : List Char} (hb : Apart p b) :
    recast e p (p.toList ++ b) = e.sequence.toList ++ recast e p b := by
  unfold recast
  split
  · rename_i h
    rw [h]
  · exact replaceBreaks_ending_append hp hb

/-- So it does whatever follows, though a line feed there may belong to it. -/
theorem exists_recast_ending_append (hp : IsLineEnding p) (b : List Char) :
    ∃ b', recast e p (p.toList ++ b) = e.sequence.toList ++ b' := by
  -- a line feed behind a carriage return is one break with it
  by_cases hb : b.head? = some '\n'
  · unfold recast
    split
    · rename_i h
      exact ⟨b, by rw [h]⟩
    · obtain ⟨r, rfl⟩ : ∃ r, b = '\n' :: r := List.head?_eq_some_iff.mp hb
      rcases hp with rfl | rfl | rfl
      · exact ⟨_, replaceBreaks_newline _⟩
      · exact ⟨_, replaceBreaks_return_newline _⟩
      · exact ⟨_, replaceBreaks_return_newline _⟩
  · exact ⟨_, recast_ending_append hp fun _ => hb⟩

end Scaffold.Text
