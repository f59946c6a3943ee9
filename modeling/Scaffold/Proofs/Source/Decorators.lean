import Scaffold.Proofs.Source.Files
import Scaffold.Proofs.Source.Pruning

/-!
# `Scaffold.Proofs.Source.Decorators` — decorators that a file takes and applies

A file begins with an import of all decorators of its kind, of which those stay that the rest of the text
makes use of. Whatever texts of the schema stand there as well, a decorator that a template applies is found,
and it is not lost with an import of nothing: no quote is open on its line (`Fresh`), and nothing but a
quoted text in such an import could hold its first character (`removeEmptyChars_fresh`). What the schema
puts into a text can be lost (`Lightened`), so that a name may be imported that nothing applies any more.

## Contents
- **Removing.** `exists_of_match`, `suffix_of_match`, `Lightened`, `lightened_removeEmptyChars`.
- **Fresh places.** `Fresh`, `match_fresh`, `removeEmptyChars_fresh`.
- **Applications.** `Applies`, `LineApplies`, `applies_joinLines`, `Applies.recast`,
  `Applies.occurs_removeEmptyChars`, `infix_joinLines_iff`.
- **Names.** `Listable`, `joined`, `Offered`, `usedNames`, `pruneChars_offered`, `finishChars_offered`.
- **Files.** `decoratorsOf`, `packageOf`, `importOf`, `Decorated`, `decorated_finishChars`, `Headed`.
-/

namespace Scaffold.Source

open Naming (Quotable quoteMarks)
open Text (Eol IsLineEnding OneLine isBlank recast trim)

/-! ## Removing -/

/-- What is matched as an import of nothing: its words, a quoted text, and the end of its line. -/
theorem exists_of_match {cs r : List Char} (h : matchEmptyImport? cs = some r) :
    ∃ words t r', cs = words ++ t ∧ (∀ c ∈ words, c ∈ "import\x7b\x7dfrom".toList ∨ isBlank c = true) ∧
      dropQuoted? t = some r' ∧ r = dropEnd r' := by
  unfold matchEmptyImport? at h
  simp only [bind, Option.bind_eq_some_iff] at h
  obtain ⟨r₁, h₁, r₂, h₂, r₃, h₃, r₄, h₄, r₅, h₅, hr⟩ := h
  obtain ⟨b, hb, hblank⟩ := dropWord?_eq_some h₂
  obtain ⟨b', hb', hblank'⟩ := dropWord?_eq_some h₃
  obtain ⟨b'', hb'', hblank''⟩ := dropWord?_eq_some h₄
  obtain ⟨b₄, hb₄, hblank₄⟩ := exists_blank r₄
  refine ⟨"import".toList ++ (b ++ ("\x7b".toList ++ (b' ++ ("\x7d".toList ++ (b'' ++
    ("from".toList ++ b₄)))))), r₄.dropWhile isBlank, r₅, ?_, fun c hc => ?_, h₅,
    (Option.some.inj hr).symm⟩
  · rw [dropPat?_eq_some h₁, hb, hb', hb'']
    simp only [List.append_assoc]
    rw [← hb₄]
  · have hword : ∀ word : List Char, word ⊆ "import\x7b\x7dfrom".toList → c ∈ word →
        c ∈ "import\x7b\x7dfrom".toList ∨ isBlank c = true := fun word hword hc => .inl (hword hc)
    simp only [List.mem_append] at hc
    rcases hc with hc | hc | hc | hc | hc | hc | hc | hc
    · exact hword _ (by decide) hc
    · exact .inr (hblank c hc)
    · exact hword _ (by decide) hc
    · exact .inr (hblank' c hc)
    · exact hword _ (by decide) hc
    · exact .inr (hblank'' c hc)
    · exact hword _ (by decide) hc
    · exact .inr (hblank₄ c hc)

theorem dropQuoted?_suffix {cs r : List Char} (h : dropQuoted? cs = some r) : r <:+ cs := by
  cases cs with
  | nil => exact absurd h (by simp [dropQuoted?])
  | cons q cs =>
      rw [dropQuoted?] at h
      split at h
      · split at h
        · rename_i c s hs
          split at h
          · cases h
            exact ((List.suffix_cons c r).trans (hs ▸ List.dropWhile_suffix _)).trans
              (List.suffix_cons q cs)
          · exact absurd h (by simp)
        · exact absurd h (by simp)
      · exact absurd h (by simp)

theorem dropEnd_suffix (cs : List Char) : dropEnd cs <:+ cs := by
  have hblank : cs.dropWhile isBlank <:+ cs := List.dropWhile_suffix _
  unfold dropEnd
  split
  · rename_i r hr
    rw [hr] at hblank
    obtain ⟨w, hw, -⟩ := exists_break (r.dropWhile fun c => c = ' ' || c = '\t')
    have hbreak : dropBreak (r.dropWhile fun c => c = ' ' || c = '\t') <:+
        r.dropWhile fun c => c = ' ' || c = '\t' := ⟨w, hw.symm⟩
    exact ((hbreak.trans (List.dropWhile_suffix _)).trans (List.suffix_cons ';' r)).trans hblank
  · exact hblank

theorem suffix_of_match {cs r : List Char} (h : matchEmptyImport? cs = some r) : r <:+ cs := by
  obtain ⟨words, t, r', rfl, -, hquoted, rfl⟩ := exists_of_match h
  exact ((dropEnd_suffix r').trans (dropQuoted?_suffix hquoted)).trans (List.suffix_append words t)

/-- **An import of nothing was taken out of a text**, or the text is as it was. -/
def Lightened (cs r : List Char) : Prop :=
  r = cs ∨ ∃ u v w, cs = u ++ v ∧ Opens v ∧ w <:+ v ∧ r = u ++ w

theorem lightened_removeEmptyChars (cs : List Char) : Lightened cs (removeEmptyChars cs) := by
  induction cs with
  | nil => exact .inl rfl
  | cons c cs ih =>
      rw [removeEmptyChars]
      cases hm : matchEmptyImport? (c :: cs) with
      | some r => exact .inr ⟨[], c :: cs, r, rfl, opens_of_match hm, suffix_of_match hm, rfl⟩
      | none =>
          rcases ih with hsame | ⟨u, v, w, rfl, hv, hw, hr⟩
          · exact .inl (congrArg (c :: ·) hsame)
          · exact .inr ⟨c :: u, v, w, rfl, hv, hw, congrArg (c :: ·) hr⟩

/-! ## Fresh places -/

/-- The last line of a text holds no marks, so that no quote is open at its end. -/
def Fresh (cs : List Char) : Prop :=
  ∃ v w, cs = v ++ w ∧ (∀ c ∈ v.getLast?, c = '\n' ∨ c = '\r') ∧ ∀ c ∈ w, c ∉ quoteMarks

/-- A line ends behind every quote. -/
theorem Fresh.exists_break {a b : List Char} {q : Char} (h : Fresh (a ++ q :: b))
    (hq : q = '\x22' ∨ q = '\x27') : ∃ d ∈ b, d = '\n' ∨ d = '\r' := by
  obtain ⟨v, w, heq, hv, hw⟩ := h
  have hquote : q ∉ w := fun hm => hw q hm (by rcases hq with rfl | rfl <;> decide)
  rcases List.append_eq_append_iff.mp heq with ⟨m, rfl, hm⟩ | ⟨m, rfl, rfl⟩
  · cases m with
    | nil =>
        rw [List.nil_append] at hm
        exact absurd (hm ▸ List.mem_cons_self) hquote
    | cons d m =>
        obtain ⟨rfl, rfl⟩ := List.cons.inj hm
        rcases List.eq_nil_or_concat m with rfl | ⟨m, d, rfl⟩
        · have hlast := hv q (by simp)
          rcases hq with rfl | rfl <;> exact absurd hlast (by decide)
        · rw [List.concat_eq_append, ← List.cons_append, ← List.append_assoc,
            List.getLast?_concat] at hv
          exact ⟨d, by simp, hv d rfl⟩
  · exact absurd (List.mem_append_right m List.mem_cons_self) hquote

theorem Fresh.tail {c : Char} {cs : List Char} (h : Fresh (c :: cs)) : Fresh cs := by
  obtain ⟨v, w, heq, hv, hw⟩ := h
  cases v with
  | nil =>
      rw [List.nil_append] at heq
      exact ⟨[], cs, rfl, by simp, fun d hd => hw d (heq ▸ List.mem_cons_of_mem c hd)⟩
  | cons d v =>
      obtain ⟨rfl, rfl⟩ := List.cons.inj heq
      refine ⟨v, w, rfl, fun d hd => hv d ?_, hw⟩
      cases v with
      | nil => exact absurd hd (by simp)
      | cons e v => rwa [List.getLast?_cons_cons]

/-- **What begins before a fresh place ends there**, if a decorator stands at that place. -/
theorem match_fresh {u z r : List Char} (hu : Fresh u)
    (h : matchEmptyImport? (u ++ '@' :: z) = some r) : ∃ v, r = v ++ '@' :: z := by
  obtain ⟨words, t, r', heq, hwords, hquoted, rfl⟩ := exists_of_match h
  have hnot : '@' ∉ words := fun hm => absurd (hwords _ hm) (by decide)
  obtain ⟨v, rfl⟩ := exists_of_append heq hnot
  have hrest : u = words ++ v := by
    rw [← List.append_assoc] at heq
    exact List.append_cancel_right heq
  -- a quoted text that begins before the place ends before it as well
  obtain ⟨v', rfl⟩ : ∃ v', r' = v' ++ '@' :: z := by
    cases v with
    | nil =>
        rw [List.nil_append, dropQuoted?, if_neg (by decide)] at hquoted
        exact absurd hquoted (by simp)
    | cons q v =>
        have hq : q = '\x22' ∨ q = '\x27' := by
          by_contra hq
          rw [List.cons_append, dropQuoted?, if_neg hq] at hquoted
          exact absurd hquoted (by simp)
        obtain ⟨d, hd, hbreak⟩ := Fresh.exists_break (hrest ▸ hu) hq
        have hstop : d = '\x22' ∨ d = '\x27' ∨ d = '\r' ∨ d = '\n' := .inr (.inr hbreak.symm)
        exact exists_dropQuoted?_of_mem hd hstop hquoted
  have hsolid : isBlank '@' = false := by decide
  obtain ⟨w, hw⟩ := exists_dropWhile hsolid v' z
  cases w with
  | nil =>
      refine ⟨[], ?_⟩
      unfold dropEnd
      rw [hw]
      rfl
  | cons d w => exact exists_dropEnd hsolid hw

/-- **Removing an import of nothing leaves what stands at a fresh place**, or looks for one there. -/
theorem removeEmptyChars_fresh {u : List Char} (hu : Fresh u) (z : List Char) :
    ∃ v, removeEmptyChars (u ++ '@' :: z) = v ++ '@' :: z ∨
      removeEmptyChars (u ++ '@' :: z) = v ++ removeEmptyChars ('@' :: z) := by
  induction u with
  | nil => exact ⟨[], .inr rfl⟩
  | cons d u ih =>
      rw [List.cons_append, removeEmptyChars]
      cases hm : matchEmptyImport? (d :: (u ++ '@' :: z)) with
      | some r =>
          obtain ⟨v, rfl⟩ := match_fresh hu hm
          exact ⟨v, .inl rfl⟩
      | none =>
          obtain ⟨v, hv⟩ := ih hu.tail
          refine ⟨d :: v, hv.imp ?_ ?_⟩ <;> exact congrArg (d :: ·)

/-! ## Applications -/

/-- **A text applies a decorator** where no quote is open. -/
def Applies (n : String) (cs : List Char) : Prop :=
  ∃ u z, cs = u ++ (application n.toList ++ z) ∧ Fresh u

/-- A line applies a decorator, and no mark stands before it. -/
def LineApplies (n l : String) : Prop :=
  ∃ w z, l.toList = w ++ (application n.toList ++ z) ∧ ∀ c ∈ w, c ∉ quoteMarks

variable {n : String} {e : Eol} {p : String}

/-- The texts around an application in a line, with a test of the one before it that evaluates. -/
theorem lineApplies_of_eq {l : String} (w z : List Char)
    (heq : l.toList = w ++ (application n.toList ++ z))
    (hw : w.all (fun c => !quoteMarks.contains c) = true) : LineApplies n l :=
  ⟨w, z, heq, fun c hc hm => by simpa [hm] using List.all_eq_true.mp hw c hc⟩

theorem LineApplies.append {front : String} (h : LineApplies n front) (back : String) :
    LineApplies n (front ++ back) := by
  obtain ⟨w, z, heq, hw⟩ := h
  exact ⟨w, z ++ back.toList, by rw [String.toList_append, heq]; simp, hw⟩

/-- What is applied on a line is applied in the text. -/
theorem applies_joinLines (hp : IsLineEnding p) {ls : Lines} {l : String} (hl : l ∈ ls)
    (h : LineApplies n l) : Applies n (joinLines p ls).toList := by
  obtain ⟨w, z, heq, hw⟩ := h
  obtain ⟨before, after, rfl⟩ := List.append_of_mem hl
  have hbreak : ∀ c ∈ (joinLines p before).toList.getLast?, c = '\n' ∨ c = '\r' := by
    rcases List.eq_nil_or_concat before with rfl | ⟨before, l', rfl⟩
    · simp [joinLines, Text.concat]
    · rw [List.concat_eq_append, toList_joinLines_append, toList_joinLines_cons]
      rcases hp with rfl | rfl | rfl <;> simp [joinLines, Text.concat]
  refine ⟨(joinLines p before).toList ++ w, z ++ (p.toList ++ (joinLines p after).toList), ?_,
    _, w, rfl, hbreak, hw⟩
  rw [toList_joinLines_append, toList_joinLines_cons, heq]
  simp

theorem oneLine_application (hn : Solid n) : OneLine (application n.toList) :=
  OneLine.append (OneLine.append (a := ['@']) (by decide) hn.oneLine) (by decide)

/-- What ends no line is found on one of the lines that were joined. -/
theorem infix_joinLines_iff (hp : IsLineEnding p) {pat : List Char} (hpat : OneLine pat)
    (hne : pat ≠ []) {ls : Lines} :
    pat <:+: (joinLines p ls).toList ↔ ∃ l ∈ ls, pat <:+: l.toList := by
  induction ls with
  | nil => simp [joinLines, Text.concat, hne]
  | cons l ls ih =>
      rw [toList_joinLines_cons, Text.infix_append_ending_iff hp hpat hne, ih]
      simp only [List.mem_cons, exists_eq_or_imp]

theorem application_ne_nil (n : List Char) : application n ≠ [] := List.cons_ne_nil _ _

/-- Nothing begins within the application of a decorator. -/
theorem inert_application (hn : Solid n) : Inert (application n.toList) := by
  refine inert_of_end ?_ (by decide) (by decide) (by decide)
  rw [List.mem_cons, not_or]
  exact ⟨by decide, fun hm => (hn _ hm).2 (by decide)⟩

theorem Fresh.recast {u : List Char} (h : Fresh u) : Fresh (recast e p u) := by
  obtain ⟨v, w, rfl, hv, hw⟩ := h
  have hline : OneLine w := by
    intro c hc
    constructor <;> rintro rfl <;> exact hw _ hc (by decide)
  unfold Text.recast
  split
  · exact ⟨v, w, rfl, hv, hw⟩
  · rcases List.eq_nil_or_concat v with rfl | ⟨v, c, rfl⟩
    · refine ⟨[], w, ?_, by simp, hw⟩
      have hsame := Text.replaceBreaks_oneLine_append (t := e.sequence.toList) hline []
      rwa [List.append_nil, Text.replaceBreaks, List.append_nil] at hsame
    · have hc : c = '\n' ∨ c = '\r' := hv c (by simp)
      obtain ⟨v', hv'⟩ := Text.replaceBreaks_append_break (t := e.sequence.toList) hc v
      refine ⟨v' ++ e.sequence.toList, w, ?_, ?_, hw⟩
      · rw [List.concat_eq_append, Text.replaceBreaks_append_oneLine hline, hv']
      · cases e <;> simp [Eol.sequence]

/-- Line endings do not matter to what is applied. -/
theorem Applies.recast (hn : Solid n) {cs : List Char} (h : Applies n cs) :
    Applies n (recast e p cs) := by
  obtain ⟨u, z, rfl, hu⟩ := h
  have hname : OneLine (n.toList ++ ['(']) := by
    have hline := oneLine_application hn
    exact fun c hc => hline c (List.mem_cons_of_mem _ hc)
  refine ⟨Text.recast e p u, Text.recast e p z, ?_, hu.recast⟩
  have hat := Text.recast_append_cons (e := e) (p := p) (c := '@') (by decide) (by decide) u
    ((n.toList ++ ['(']) ++ z)
  rw [Text.recast_oneLine_append hname] at hat
  exact hat

theorem Applies.occurs {cs : List Char} (h : Applies n cs) : application n.toList <:+: cs := by
  obtain ⟨u, z, rfl, -⟩ := h
  exact ⟨u, z, List.append_assoc ..⟩

/-- **What is applied is applied still when an import of nothing is removed.** -/
theorem Applies.occurs_removeEmptyChars (hn : Solid n) {cs : List Char} (h : Applies n cs) :
    application n.toList <:+: removeEmptyChars cs := by
  obtain ⟨u, z, rfl, hu⟩ := h
  obtain ⟨v, hv⟩ := removeEmptyChars_fresh hu ((n.toList ++ ['(']) ++ z)
  have hfound : ∀ z', application n.toList <:+: v ++ (application n.toList ++ z') :=
    fun z' => ⟨v, z', List.append_assoc ..⟩
  rcases hv with hv | hv
  · exact hv ▸ hfound z
  · have hkept := removeEmptyChars_inert (inert_application hn) z
    exact (hv.trans (congrArg (v ++ ·) hkept)) ▸ hfound (removeEmptyChars z)

/-! ## Names -/

/-- A name as it can stand between others in a group. -/
def Listable (n : String) : Prop := n ≠ "" ∧ Solid n ∧ ',' ∉ n.toList

instance : Decidable (Listable n) := by
  unfold Listable
  infer_instance

/-- Names with commas between them. -/
def joined (ns : List String) : String := Text.joinWith "," ns

variable {ns : List String} {package : String}

theorem toList_joined (ns : List String) : (joined ns).toList = joinNames (ns.map String.toList) := by
  unfold joined
  induction ns with
  | nil => rfl
  | cons n ns ih =>
      cases ns with
      | nil => rfl
      | cons m ns =>
          rw [Text.joinWith, String.toList_append, String.toList_append, ih]
          simp [joinNames]

theorem joined_eq_empty (h : ∀ n ∈ ns, Listable n) : joined ns = "" ↔ ns = [] := by
  refine ⟨fun hjoined => ?_, fun hns => by rw [hns]; rfl⟩
  have hchars := toList_joined ns
  rw [hjoined] at hchars
  cases ns with
  | nil => rfl
  | cons n ns =>
      have hne : n.toList ≠ [] :=
        fun hn => (h n List.mem_cons_self).1 (String.toList_injective hn)
      cases ns with
      | nil => exact absurd hchars.symm hne
      | cons m ns => exact absurd (congrArg List.length hchars) (by simp [joinNames])

/-- Names that a file can take from a package. The end of the statement mentions none of them. -/
structure Offered (ns : List String) (package : String) : Prop where
  listable : ∀ n ∈ ns, Listable n
  path : Quotable package
  foreign : package.toList.head? ≠ some '.'
  apart : ∀ n ∈ ns, ¬ n.toList <:+: '\x7d' :: (" from \"" ++ package ++ "\";").toList

/-- Some of the names can be taken as well as all of them. -/
theorem Offered.sublist (h : Offered ns package) {ms : List String} (hms : ms.Sublist ns) :
    Offered ms package :=
  ⟨fun n hn => h.listable n (hms.subset hn), h.path, h.foreign, fun n hn => h.apart n (hms.subset hn)⟩

theorem Offered.taken (h : Offered ns package) : Taken (joined ns) package := by
  refine ⟨fun c hc => ?_, h.path, h.foreign⟩
  rw [toList_joined] at hc
  rcases mem_joinNames hc with rfl | ⟨w, hw, hc⟩
  · decide
  · obtain ⟨n, hn, rfl⟩ := List.mem_map.mp hw
    exact (h.listable n hn).2.1 c hc

/-- The names that a text makes use of. -/
def usedNames (ns : List String) (cs : List Char) : List String :=
  ns.filter fun n => isUsed baseClass.toList cs n.toList

theorem mem_usedNames {cs : List Char} (h : Listable n) :
    n ∈ usedNames ns cs ↔ n ∈ ns ∧ Used baseClass.toList cs n.toList := by
  have hne : n.toList ≠ [] := fun hn => h.1 (String.toList_injective hn)
  rw [usedNames, List.mem_filter, isUsed_iff, and_iff_right hne]

/-- The end of the first statement makes use of no name. -/
theorem Offered.isUsed_behind (h : Offered ns package) (hn : n ∈ ns) (e : Eol) (cs : List Char) :
    isUsed baseClass.toList ('\x7d' :: ((" from \"" ++ package ++ "\";").toList ++
      (e.sequence.toList ++ cs))) n.toList = isUsed baseClass.toList cs n.toList := by
  obtain ⟨hne, hsolid, -⟩ := h.listable n hn
  have hending : IsLineEnding e.sequence := by
    cases e with
    | lf => exact .inl rfl
    | crlf => exact .inr (.inl rfl)
  have hname : n.toList ≠ [] := fun hn => hne (String.toList_injective hn)
  have hinside : n.toList <:+: application n.toList := ⟨['@'], ['('], rfl⟩
  have hbehind : ∀ pat : List Char, OneLine pat → pat ≠ [] → n.toList <:+: pat →
      (pat <:+: '\x7d' :: ((" from \"" ++ package ++ "\";").toList ++ (e.sequence.toList ++ cs)) ↔
        pat <:+: cs) := by
    intro pat hpat hpne hsub
    rw [← List.cons_append, Text.infix_append_ending_iff hending hpat hpne, or_iff_right]
    exact fun hin => h.apart n hn (hsub.trans hin)
  rw [Bool.eq_iff_iff, isUsed_iff, isUsed_iff]
  refine and_congr_right fun _ => or_congr ?_ (and_congr_right fun _ => ?_)
  · exact hbehind _ (oneLine_application hsolid) (application_ne_nil _) hinside
  · exact hbehind _ hsolid.oneLine hname (List.infix_refl _)

theorem trim_of_solid (h : Solid n) : trim n.toList = n.toList :=
  trim_eq_self (fun c hc => (h c (List.mem_of_mem_head? hc)).1)
    fun c hc => (h c (List.mem_of_getLast? hc)).1

/-- Pruning leaves the names that the text behind the first statement makes use of. -/
theorem pruneChars_offered (h : Offered ns package) (e : Eol) (cs : List Char) :
    pruneChars baseClass.toList ((taken (joined ns) package).line.toList ++ (e.sequence.toList ++ cs)) =
      (taken (joined (usedNames ns cs)) package).line.toList ++ (e.sequence.toList ++ cs) := by
  have hbefore : '\x7b' ∉ "import ".toList := by decide
  have hfree : '\x7d' ∉ (joined ns).toList := fun hm => (h.taken.solid _ hm).2 (by decide)
  have hkept : joinNames (kept baseClass.toList (joined ns).toList ('\x7d' ::
      ((" from \"" ++ package ++ "\";").toList ++ (e.sequence.toList ++ cs)))) =
      (joined (usedNames ns cs)).toList := by
    have hnames : ∀ w ∈ ns.map String.toList, ',' ∉ w ∧ trim w = w := by
      intro w hw
      obtain ⟨n, hn, rfl⟩ := List.mem_map.mp hw
      obtain ⟨-, hsolid, hcomma⟩ := h.listable n hn
      exact ⟨hcomma, trim_of_solid hsolid⟩
    rw [toList_joined, toList_joined, kept_joinNames hnames, usedNames, List.filter_map]
    exact congrArg _ (congrArg _ (List.filter_congr fun n hn => h.isUsed_behind hn e cs))
  have hsplit := pruneChars_group baseClass.toList hbefore hfree
    ((" from \"" ++ package ++ "\";").toList ++ (e.sequence.toList ++ cs))
  rw [hkept] at hsplit
  rw [line_taken, line_taken]
  simpa using hsplit

/-- **What finishing makes of a text that begins with names.** -/
theorem finishChars_offered (h : Offered ns package) (drop : Bool) (e : Eol) (cs : List Char) :
    finishChars drop ((taken (joined ns) package).line.toList ++ (e.sequence.toList ++ cs)) =
      if drop = true ∧ usedNames ns cs = [] then cs
      else (taken (joined (usedNames ns cs)) package).line.toList ++
        (e.sequence.toList ++ if drop then removeEmptyChars cs else cs) := by
  have hleft : Offered (usedNames ns cs) package := h.sublist List.filter_sublist
  unfold finishChars
  rw [pruneChars_offered h]
  cases drop with
  | false => simp
  | true =>
      rw [if_pos rfl, removeEmptyChars_taken hleft.taken, if_pos rfl]
      simp only [joined_eq_empty hleft.listable, true_and]

/-! ## Files -/

/-- The decorators that a file of a kind takes from a package, as its template lists them. The class that
    models extend is taken with them. -/
def decoratorsOf : Artifact → List String
  | .model => ["Index", "Entity", "Column", "Generated", "OneToOne", "OneToMany", "ManyToOne",
      "ManyToMany", "JoinColumn", "JoinTable", "BaseEntity"]
  | .dto => ["ApiProperty", "ApiPropertyOptional"]
  | .service => ["Injectable"]
  | .controller => ["Controller", "Get", "Post", "Put", "Delete", "Body", "Param"]
  | .module => ["Module"]
  | .index => []

/-- The package that they are taken from. -/
def packageOf : Artifact → String
  | .model => "typeorm"
  | .dto => "@nestjs/swagger"
  | _ => "@nestjs/common"

theorem decoratorsOf_ne_nil {a : Artifact} (ha : a ≠ .index) : decoratorsOf a ≠ [] := by
  cases a with
  | index => exact absurd rfl ha
  | _ => exact List.cons_ne_nil _ _

theorem offered (a : Artifact) : Offered (decoratorsOf a) (packageOf a) := by
  cases a <;> exact ⟨by decide, by decide, by decide, by decide +kernel⟩

/-- The import of names that a file of a kind begins with, as a whole line. Of no names there is none. -/
def importOf (e : Eol) (a : Artifact) (names : List String) : List Char :=
  if names = [] then []
  else (taken (joined names) (packageOf a)).line.toList ++ e.sequence.toList

variable {a : Artifact} {applied : List String}

/-- **What a file takes and applies.** `body` is what was rendered behind the first import, `rest` what
    stands there in the end, and `names` are those that the file takes of all that its template lists. -/
structure Decorated (e : Eol) (a : Artifact) (applied names : List String)
    (body rest text : List Char) : Prop where
  /-- The text begins with an import of the names, or with what follows it if there are none. -/
  front : text = importOf e a names ++ rest
  /-- The names are some of those that the template lists, in that order. -/
  listed : names.Sublist (decoratorsOf a)
  /-- They are the names that the rendered text makes use of. -/
  mem_iff : ∀ n ∈ decoratorsOf a, n ∈ names ↔ Used baseClass.toList body n.toList
  /-- What the template applies is taken, and the file applies it. -/
  applied : ∀ n ∈ applied, n ∈ decoratorsOf a → n ∈ names ∧ application n.toList <:+: rest
  /-- What was rendered is there, though an import of nothing can be missing. -/
  lightened : Lightened body rest
  /-- It is all there in a model, and where the first import is gone. -/
  whole : a = .model ∨ names = [] → rest = body
  /-- The file makes use of all the names, unless it is a data transfer object from which an import of
      nothing is missing. -/
  used : a ≠ .dto ∨ rest = body → ∀ n ∈ names, Used baseClass.toList rest n.toList

/-- **A file takes what it applies**, and nothing that it does not apply. Of a kind that has an import of
    nothing removed the template applies all decorators, or the file is a data transfer object. -/
theorem decorated_finishChars {body : List Char}
    (happlied : ∀ n ∈ applied, n ∈ decoratorsOf a → Applies n body)
    (hmodel : a = .model → ∃ n ∈ applied, n ∈ decoratorsOf a)
    (hothers : a ≠ .model → a ≠ .dto → ∀ n ∈ decoratorsOf a, n ∈ applied) :
    ∃ rest, Decorated e a applied (usedNames (decoratorsOf a) body) body rest
      (finishChars (a ≠ .model) ((taken (joined (decoratorsOf a)) (packageOf a)).line.toList ++
        (e.sequence.toList ++ body))) := by
  have hmem : ∀ n ∈ decoratorsOf a, n ∈ usedNames (decoratorsOf a) body ↔
      Used baseClass.toList body n.toList := by
    intro n hn
    rw [mem_usedNames ((offered a).listable n hn), and_iff_right hn]
  have htaken : ∀ n ∈ applied, n ∈ decoratorsOf a → n ∈ usedNames (decoratorsOf a) body :=
    fun n hn hoffered => (hmem n hoffered).mpr (.inl (happlied n hn hoffered).occurs)
  have hlisted : (usedNames (decoratorsOf a) body).Sublist (decoratorsOf a) := List.filter_sublist
  have hused : ∀ n ∈ usedNames (decoratorsOf a) body, Used baseClass.toList body n.toList :=
    fun n hn => (hmem n (hlisted.subset hn)).mp hn
  rw [finishChars_offered (offered a)]
  by_cases hkept : a = .model ∨ usedNames (decoratorsOf a) body = []
  · -- nothing else is removed, and the first import is only if it takes nothing
    refine ⟨body, ?_, hlisted, hmem, fun n hn hoffered =>
      ⟨htaken n hn hoffered, (happlied n hn hoffered).occurs⟩, .inl rfl, fun _ => rfl, fun _ => hused⟩
    unfold importOf
    by_cases hnone : usedNames (decoratorsOf a) body = []
    · have hdrop : a ≠ .model := by
        intro ha
        obtain ⟨n, hn, hoffered⟩ := hmodel ha
        exact List.ne_nil_of_mem (htaken n hn hoffered) hnone
      rw [if_pos hnone, if_pos ⟨decide_eq_true hdrop, hnone⟩, List.nil_append]
    · have hmodels := hkept.resolve_right hnone
      rw [if_neg hnone, if_neg (fun h => hnone h.2), if_neg (by simp [hmodels]), List.append_assoc]
  · rw [not_or] at hkept
    have hstill : ∀ n ∈ applied, n ∈ decoratorsOf a → application n.toList <:+: removeEmptyChars body :=
      fun n hn hoffered =>
        (happlied n hn hoffered).occurs_removeEmptyChars ((offered a).listable n hoffered).2.1
    refine ⟨removeEmptyChars body, ?_, hlisted, hmem, fun n hn hoffered =>
      ⟨htaken n hn hoffered, hstill n hn hoffered⟩, lightened_removeEmptyChars body,
      fun h => absurd h (not_or.mpr hkept), fun h n hn => ?_⟩
    · unfold importOf
      rw [if_neg hkept.2, if_neg (fun h => hkept.2 h.2), if_pos (decide_eq_true hkept.1),
        List.append_assoc]
    · rcases h with hdto | hsame
      · have hoffered := hlisted.subset hn
        exact .inl (hstill n (hothers hkept.1 hdto n hoffered) hoffered)
      · rw [hsame]
        exact hused n hn

/-- Lines of a file of a kind that apply some decorators behind the first one. -/
structure Headed (a : Artifact) (applied : List String) (ls : Lines) : Prop where
  first : ls.head? = some (taken (joined (decoratorsOf a)) (packageOf a)).line
  second : ∀ l ∈ ls.tail.head?, l.toList.head? ≠ some '\n'
  applies : ∀ n ∈ applied, ∃ l ∈ ls.tail, LineApplies n l

variable {ls : Lines}

/-- The text that lines give begins with all names of the kind. -/
theorem Headed.recast_eq (h : Headed a applied ls) (hp : IsLineEnding p) :
    recast e p (joinLines p ls).toList = (taken (joined (decoratorsOf a)) (packageOf a)).line.toList ++
      (e.sequence.toList ++ recast e p (joinLines p ls.tail).toList) := by
  obtain ⟨rest, rfl⟩ := List.head?_eq_some_iff.mp h.first
  have hone : ∀ l ∈ [(taken (joined (decoratorsOf a)) (packageOf a)).line], OneLine l.toList := by
    intro l hl
    rw [List.mem_singleton.mp hl]
    exact oneLine_line (offered a).taken.plain
  have hapart : Text.Apart p (joinLines p rest).toList := by
    cases rest with
    | nil => exact fun _ => by simp [joinLines, Text.concat]
    | cons l rest => exact apart_joinLines (h.second l rfl) rest
  have hsplit := recast_joinLines (e := e) hp hone hapart
  rw [toList_joinLines_cons] at hsplit
  simpa [joinLines, Text.concat] using hsplit

/-- What the lines behind the first one apply is applied in their text. -/
theorem Headed.applies_recast (h : Headed a applied ls) (hp : IsLineEnding p) :
    ∀ n ∈ applied, n ∈ decoratorsOf a → Applies n (recast e p (joinLines p ls.tail).toList) := by
  intro n hn hoffered
  obtain ⟨l, hl, hline⟩ := h.applies n hn
  exact (applies_joinLines hp hl hline).recast ((offered a).listable n hoffered).2.1

end Scaffold.Source
