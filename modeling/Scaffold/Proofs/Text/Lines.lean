import Scaffold.Proofs.Text.Widening

/-!
# `Scaffold.Proofs.Text.Lines` — normalizing keeps the lines of a text

Where the lines of a text end is said by a relation of its own (`Cut`): a carriage return followed by a
line feed is one break, and a carriage return ends a line alone only where no line feed follows it. Every
text is cut in one way (`cut_iff`). Replacing breaks joins these lines with another ending
(`Cut.replaceBreaks`), and what was joined is cut there again (`cut_intercalate`), so that lines go
through any number of conversions (`normalize_cut`).

## Contents
- **Cutting.** `Breaks`, `Cut`, `Cut.oneLine`, `cut_iff`.
- **Joining.** `Cut.replaceBreaks`, `cut_intercalate`, `ended_intercalate`.
- **Normalizing.** `recast_of_cut`, `Normalized`, `normalize_cut`, `cut_mixedBreaks`.
- **Searching.** `infix_append_gap_iff`, `infix_append_ending_iff`, `Cut.infix_iff`, `infix_recast_iff`.
-/

namespace Scaffold.Text

/-! ## Cutting -/

/-- **What ends a line before the rest of a text.** A carriage return and a line feed end it together. -/
inductive Breaks : (ending rest : List Char) → Prop
  | pair (r : List Char) : Breaks ['\r', '\n'] r
  | feed (r : List Char) : Breaks ['\n'] r
  | alone {r : List Char} (h : r.head? ≠ some '\n') : Breaks ['\r'] r

/-- **A text is cut into its lines**, at every break and nowhere else. -/
inductive Cut : List Char → List (List Char) → Prop
  | last {l : List Char} (hl : OneLine l) : Cut l [l]
  | line {l b r : List Char} {ls : List (List Char)} (hl : OneLine l) (hb : Breaks b r)
      (hr : Cut r ls) : Cut (l ++ (b ++ r)) (l :: ls)

variable {t cs : List Char} {ls : List (List Char)}

theorem replaceBreaks_breaks {b r : List Char} (h : Breaks b r) :
    replaceBreaks t (b ++ r) = t ++ replaceBreaks t r := by
  cases h with
  | pair => exact replaceBreaks_return_newline r
  | feed => exact replaceBreaks_newline r
  | alone h => exact replaceBreaks_return h

/-- A part on one line stays behind what was replaced as well. -/
theorem replaceBreaks_append_oneLine {a b : List Char} (hb : OneLine b) :
    Text.replaceBreaks t (a ++ b) = Text.replaceBreaks t a ++ b := by
  cases b with
  | nil => rw [List.append_nil, List.append_nil]
  | cons c b =>
      have hc := hb c List.mem_cons_self
      have hline := replaceBreaks_oneLine_append (t := t)
        (fun d hd => hb d (List.mem_cons_of_mem c hd)) []
      rw [List.append_nil, Text.replaceBreaks, List.append_nil] at hline
      rw [replaceBreaks_append_cons hc.1 hc.2, hline]

theorem Cut.oneLine (h : Cut cs ls) : ∀ l ∈ ls, OneLine l := by
  induction h with
  | last hl => exact fun m hm => List.mem_singleton.mp hm ▸ hl
  | line hl _ _ ih => exact List.forall_mem_cons.mpr ⟨hl, ih⟩

theorem Cut.ne_nil (h : Cut cs ls) : ls ≠ [] := by
  cases h <;> exact List.cons_ne_nil _ _

/-- A character that ends no line stands on the first one. -/
theorem Cut.cons {c : Char} (hn : c ≠ '\n') (hr : c ≠ '\r') (h : Cut cs ls) :
    ∃ ls', Cut (c :: cs) ls' := by
  cases h with
  | last hl => exact ⟨_, .last (List.forall_mem_cons.mpr ⟨⟨hn, hr⟩, hl⟩)⟩
  | line hl hb h => exact ⟨_, .line (List.forall_mem_cons.mpr ⟨⟨hn, hr⟩, hl⟩) hb h⟩

theorem exists_cut (cs : List Char) : ∃ ls, Cut cs ls := by
  have hnil : OneLine [] := fun c hc => absurd hc List.not_mem_nil
  -- the cases are those of replacing breaks, whatever they are replaced by
  fun_induction replaceBreaks [] cs with
  | case1 => exact ⟨_, .last hnil⟩
  | case2 r ih =>
      obtain ⟨ls, hls⟩ := ih
      exact ⟨_, .line hnil (.pair r) hls⟩
  | case3 c r hpair hbreak ih =>
      obtain ⟨ls, hls⟩ := ih
      rcases hbreak with rfl | rfl
      · exact ⟨_, .line hnil (.feed r) hls⟩
      · refine ⟨_, .line hnil (.alone fun hr => ?_) hls⟩
        obtain ⟨r', rfl⟩ := List.head?_eq_some_iff.mp hr
        exact hpair r' rfl rfl
  | case4 c r _ hbreak ih =>
      obtain ⟨ls, hls⟩ := ih
      rw [not_or] at hbreak
      exact hls.cons hbreak.1 hbreak.2

theorem Cut.linesOf_eq (h : Cut cs ls) : linesOf cs = ls := by
  unfold linesOf
  induction h with
  | last hl =>
      have hsame := replaceBreaks_oneLine_append (t := ['\n']) hl []
      rw [List.append_nil] at hsame
      rw [hsame, replaceBreaks, List.append_nil, splitOn_of_not_mem hl.not_mem]
  | line hl hb _ ih =>
      rw [replaceBreaks_oneLine_append hl, replaceBreaks_breaks hb, List.singleton_append,
        splitOn_append_cons, splitOn_of_not_mem hl.not_mem, ih]
      rfl

/-- **Every text is cut in one way.** -/
theorem cut_iff : Cut cs ls ↔ linesOf cs = ls := by
  refine ⟨Cut.linesOf_eq, fun h => ?_⟩
  obtain ⟨ls', hls'⟩ := exists_cut cs
  rwa [← h, hls'.linesOf_eq]

/-! ## Joining -/

/-- **Replacing breaks joins the lines anew.** -/
theorem Cut.replaceBreaks (h : Cut cs ls) : replaceBreaks t cs = t.intercalate ls := by
  induction h with
  | last hl =>
      have hsame := replaceBreaks_oneLine_append (t := t) hl []
      rw [List.append_nil] at hsame
      rw [hsame, Text.replaceBreaks, List.append_nil, List.intercalate_singleton]
  | line hl hb hr ih =>
      rw [replaceBreaks_oneLine_append hl, replaceBreaks_breaks hb, ih,
        List.intercalate_cons_of_ne_nil hr.ne_nil, List.append_assoc]

theorem breaks_sequence (e : Eol) (r : List Char) : Breaks e.sequence.toList r := by
  cases e with
  | lf => exact .feed r
  | crlf => exact .pair r

/-- **Joined lines are cut where they were joined.** -/
theorem cut_intercalate (e : Eol) (hls : ls ≠ []) (h : ∀ l ∈ ls, OneLine l) :
    Cut (e.sequence.toList.intercalate ls) ls := by
  induction ls with
  | nil => exact absurd rfl hls
  | cons l ls ih =>
      obtain ⟨hl, hrest⟩ := List.forall_mem_cons.mp h
      cases ls with
      | nil =>
          rw [List.intercalate_singleton]
          exact .last hl
      | cons m ls =>
          rw [List.intercalate_cons_cons, List.append_assoc]
          exact .line hl (breaks_sequence e _) (ih (List.cons_ne_nil m ls) hrest)

theorem widen_intercalate (h : ∀ l ∈ ls, OneLine l) :
    widen (['\n'].intercalate ls) = ['\r', '\n'].intercalate ls := by
  induction ls with
  | nil => rfl
  | cons l ls ih =>
      obtain ⟨hl, hrest⟩ := List.forall_mem_cons.mp h
      cases ls with
      | nil => rw [List.intercalate_singleton, List.intercalate_singleton, widen_oneLine hl]
      | cons m ls =>
          rw [List.intercalate_cons_cons, List.intercalate_cons_cons, widen_append, widen_append,
            widen_oneLine hl, ih hrest]
          rfl

theorem not_mem_intercalate (h : ∀ l ∈ ls, OneLine l) : '\r' ∉ ['\n'].intercalate ls := by
  induction ls with
  | nil => exact List.not_mem_nil
  | cons l ls ih =>
      obtain ⟨hl, hrest⟩ := List.forall_mem_cons.mp h
      have hreturn : '\r' ∉ l := fun hm => (hl _ hm).2 rfl
      cases ls with
      | nil => rwa [List.intercalate_singleton]
      | cons m ls =>
          rw [List.intercalate_cons_cons, List.mem_append, List.mem_append, not_or, not_or]
          exact ⟨⟨hreturn, by decide⟩, ih hrest⟩

/-- **Joined lines have no other break than the one they are joined with.** -/
theorem ended_intercalate (e : Eol) (h : ∀ l ∈ ls, OneLine l) :
    Ended e (e.sequence.toList.intercalate ls) := by
  cases e with
  | lf => exact not_mem_intercalate h
  | crlf =>
      show Ended .crlf (['\r', '\n'].intercalate ls)
      rw [← widen_intercalate h]
      exact ended_widen (not_mem_intercalate h)

/-! ## Normalizing -/

variable {e : Eol} {p : String}

theorem recast_of_cut (hp : p ≠ e.sequence) (h : Cut cs ls) :
    recast e p cs = e.sequence.toList.intercalate ls := by
  rw [recast, if_neg hp, h.replaceBreaks]

/-- **What a text has become when its lines end as asked for.** They are the lines of the result, which has
    no other break. Normalizing it once more changes nothing, and normalizing it to another line ending is
    the same as having done so at first. -/
structure Normalized (e : Eol) (text : String) (ls : List (List Char)) (result : String) : Prop where
  cut : ∀ ls', Cut text.toList ls' ↔ ls' = ls
  joined : result.toList = e.sequence.toList.intercalate ls
  lines : ∀ ls', Cut result.toList ls' ↔ ls' = ls
  ended : Ended e result.toList
  again : ∀ p, normalize result e p = result
  other : ∀ e' p, p ≠ e'.sequence → normalize result e' p = normalize text e' p

/-- **Normalizing joins the lines of a text with the line ending that was asked for**, unless it takes the
    text to have that already. -/
theorem normalize_cut (text : String) (h : p ≠ e.sequence) :
    ∃ ls, Normalized e text ls (normalize text e p) := by
  obtain ⟨ls, hls⟩ := exists_cut text.toList
  have hunique : ∀ {cs}, Cut cs ls → ∀ ls', Cut cs ls' ↔ ls' = ls := by
    intro cs hcs ls'
    rw [cut_iff, hcs.linesOf_eq, eq_comm]
  have hresult : ∀ e' p', p' ≠ e'.sequence →
      normalize text e' p' = String.ofList (e'.sequence.toList.intercalate ls) := by
    intro e' p' h'
    rw [normalize_eq, recast_of_cut h' hls]
  rw [hresult e p h]
  generalize hjoined : e.sequence.toList.intercalate ls = joined
  have hagain : Cut joined ls := hjoined ▸ cut_intercalate e hls.ne_nil hls.oneLine
  have hother : ∀ e' p', p' ≠ e'.sequence →
      normalize (String.ofList joined) e' p' = String.ofList (e'.sequence.toList.intercalate ls) := by
    intro e' p' h'
    rw [normalize_eq, String.toList_ofList, recast_of_cut h' hagain]
  refine ⟨ls, hunique hls, ?_, ?_, ?_, fun p' => ?_, fun e' p' h' => ?_⟩
  · rw [String.toList_ofList, hjoined]
  · rw [String.toList_ofList]
    exact hunique hagain
  · rw [String.toList_ofList, ← hjoined]
    exact ended_intercalate e hls.oneLine
  · by_cases h' : p' = e.sequence
    · rw [normalize, if_pos h']
    · rw [hother e p' h', hjoined]
  · rw [hother e' p' h', hresult e' p' h']

/-- Of a text with all kinds of breaks six lines are left, two of them between the halves of what could be
    taken for one break. -/
theorem cut_mixedBreaks : "\n" ≠ Eol.crlf.sequence ∧
    Normalized .crlf "a\r\r\nb\n\rc\r" [['a'], [], ['b'], [], ['c'], []]
      (normalize "a\r\r\nb\n\rc\r" .crlf "\n") := by
  have hplatform : "\n" ≠ Eol.crlf.sequence := by decide
  obtain ⟨ls, h⟩ := normalize_cut "a\r\r\nb\n\rc\r" hplatform
  have hlines : linesOf "a\r\r\nb\n\rc\r".toList = [['a'], [], ['b'], [], ['c'], []] := by
    decide +kernel
  obtain rfl := hlines.symm.trans (cut_iff.mp ((h.cut ls).mpr rfl))
  exact ⟨hplatform, h⟩

/-! ## Searching -/

variable {pat : List Char}

/-- What does not hold a character is not found across it. -/
theorem infix_append_cons_iff {c : Char} (hc : c ∉ pat) (a b : List Char) :
    pat <:+: a ++ c :: b ↔ pat <:+: a ∨ pat <:+: b := by
  have hfront : ∀ {q : List Char}, q ⊆ pat → q <+: c :: b → q = [] := by
    intro q hq hprefix
    rcases List.prefix_cons_iff.mp hprefix with rfl | ⟨r, rfl, -⟩
    · rfl
    · exact absurd (hq List.mem_cons_self) hc
  constructor
  · intro h
    rcases List.infix_append_iff.mp h with h | h | ⟨u, v, rfl, hu, hv⟩
    · exact .inl h
    · rcases List.infix_cons_iff.mp h with h | h
      · rw [hfront (List.Subset.refl _) h]
        exact .inl List.nil_infix
      · exact .inr h
    · rw [hfront (List.subset_append_right u v) hv, List.append_nil]
      exact .inl hu.isInfix
  · rintro (h | h)
    · exact List.infix_append_of_infix_left h
    · exact List.infix_append_of_infix_right (List.infix_cons h)

/-- What holds no character of a gap is not found across it. -/
theorem infix_append_gap_iff {gap : List Char} (hgap : gap ≠ []) (hfree : ∀ c ∈ gap, c ∉ pat)
    (hne : pat ≠ []) (a b : List Char) : pat <:+: a ++ (gap ++ b) ↔ pat <:+: a ∨ pat <:+: b := by
  cases gap with
  | nil => exact absurd rfl hgap
  | cons c gap =>
      rw [List.forall_mem_cons] at hfree
      rw [List.cons_append, infix_append_cons_iff hfree.1]
      refine or_congr_right ?_
      -- nothing stands before the other characters of the gap
      have htail := hfree.2
      clear hgap hfree
      induction gap with
      | nil => rfl
      | cons d gap ih =>
          rw [List.forall_mem_cons] at htail
          have hone := infix_append_cons_iff htail.1 [] (gap ++ b)
          rw [List.nil_append, List.infix_nil, or_iff_right hne] at hone
          exact hone.trans (ih htail.2)

theorem infix_append_breaks_iff {l b r : List Char} (hb : ∀ c ∈ b, c = '\n' ∨ c = '\r') (hgap : b ≠ [])
    (hpat : OneLine pat) (hne : pat ≠ []) : pat <:+: l ++ (b ++ r) ↔ pat <:+: l ∨ pat <:+: r := by
  refine infix_append_gap_iff hgap (fun c hc hm => ?_) hne l r
  have hline := hpat c hm
  rcases hb c hc with h | h
  · exact hline.1 h
  · exact hline.2 h

theorem infix_append_ending_iff (hp : IsLineEnding p) {l r : List Char} (hpat : OneLine pat)
    (hne : pat ≠ []) : pat <:+: l ++ (p.toList ++ r) ↔ pat <:+: l ∨ pat <:+: r := by
  refine infix_append_breaks_iff ?_ ?_ hpat hne <;> rcases hp with rfl | rfl | rfl <;> simp

/-- **What ends no line is found on one of the lines of a text.** -/
theorem Cut.infix_iff (h : Cut cs ls) (hpat : OneLine pat) (hne : pat ≠ []) :
    pat <:+: cs ↔ ∃ l ∈ ls, pat <:+: l := by
  induction h with
  | last hl => simp
  | @line l b r ls hl hb hr ih =>
      have hrest : pat <:+: l ++ (b ++ r) ↔ pat <:+: l ∨ pat <:+: r := by
        refine infix_append_breaks_iff ?_ ?_ hpat hne <;> cases hb <;> simp
      simp only [List.mem_cons, exists_eq_or_imp, hrest, ih]

/-- **Line endings do not matter to what ends no line.** -/
theorem infix_recast_iff (hpat : OneLine pat) (hne : pat ≠ []) :
    pat <:+: recast e p cs ↔ pat <:+: cs := by
  by_cases h : p = e.sequence
  · rw [recast, if_pos h]
  · obtain ⟨ls, hls⟩ := exists_cut cs
    rw [recast_of_cut h hls, (cut_intercalate e hls.ne_nil hls.oneLine).infix_iff hpat hne,
      hls.infix_iff hpat hne]

end Scaffold.Text
