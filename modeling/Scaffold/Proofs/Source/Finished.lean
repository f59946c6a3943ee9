import Scaffold.Proofs.Source.Imports

/-!
# `Scaffold.Proofs.Source.Finished` — what is read from a finished text

A rendered text is given its line endings, pruned, and rid of an import of nothing. None of that
changes which statements about other files it begins with (`references_finishChars`), nor which class
it declares (`mem_linesOf_finishChars`). What stands between them may be any text at all.

## Contents
- **Lines.** `toList_joinLines_cons`, `recast_joinLines`, `linesOf_joinLines`, `inert_joinLines`.
- **Fronts.** `Taken`, `taken`, `finishChars`, `removeEmptyChars_taken`, `exists_front`,
  `imports_statements`, `references_finishChars`.
- **Classes.** `Standing`, `mem_linesOf_finishChars`, `mem_linesOf_decorated`, `mem_linesOf_imported`.
-/

namespace Scaffold.Source

open Naming (Quotable)
open Text (Apart Eol IsLineEnding OneLine isBlank linesOf recast)

/-! ## Lines -/

theorem toList_joinLines_cons (eol l : String) (ls : Lines) :
    (joinLines eol (l :: ls)).toList = l.toList ++ (eol.toList ++ (joinLines eol ls).toList) := by
  simp [joinLines, Text.concat]

theorem toList_joinLines_append (eol : String) (ls rest : Lines) :
    (joinLines eol (ls ++ rest)).toList = (joinLines eol ls).toList ++ (joinLines eol rest).toList := by
  induction ls with
  | nil => rfl
  | cons l ls ih => rw [List.cons_append, toList_joinLines_cons, toList_joinLines_cons, ih]; simp

variable {p : String} {e : Eol}

/-- Lines keep apart from the line ending before them unless the first one begins with a line feed. -/
theorem apart_joinLines {l : String} (h : l.toList.head? ≠ some '\n') (ls : Lines) :
    Apart p (joinLines p (l :: ls)).toList := by
  rintro rfl
  rw [toList_joinLines_cons]
  cases hl : l.toList with
  | nil => simp
  | cons c cs =>
      rw [hl] at h
      simpa using h

theorem OneLine.head?_ne {cs : List Char} (h : OneLine cs) : cs.head? ≠ some '\n' := by
  intro hhead
  exact (h _ (List.mem_of_mem_head? hhead)).1 rfl

/-- **Lines at the front of a text are given the line endings that were chosen.** -/
theorem recast_joinLines (hp : IsLineEnding p) {ls rest : Lines} (hls : ∀ l ∈ ls, OneLine l.toList)
    (hrest : Apart p (joinLines p rest).toList) :
    recast e p (joinLines p (ls ++ rest)).toList =
      (joinLines e.sequence ls).toList ++ recast e p (joinLines p rest).toList := by
  induction ls with
  | nil => rfl
  | cons l ls ih =>
      have htail : ∀ m ∈ ls, OneLine m.toList := fun m hm => hls m (List.mem_cons_of_mem _ hm)
      have hapart : Apart p (joinLines p (ls ++ rest)).toList := by
        cases ls with
        | nil => exact hrest
        | cons m ls => exact apart_joinLines (OneLine.head?_ne (htail m List.mem_cons_self)) _
      rw [List.cons_append, toList_joinLines_cons, toList_joinLines_cons,
        Text.recast_oneLine_append (hls l List.mem_cons_self), Text.recast_ending_append hp hapart,
        ih htail]
      simp

theorem linesOf_joinLines {ls : Lines} (h : ∀ l ∈ ls, OneLine l.toList) (r : List Char) :
    linesOf ((joinLines e.sequence ls).toList ++ r) = ls.map String.toList ++ linesOf r := by
  induction ls with
  | nil => rfl
  | cons l ls ih =>
      rw [toList_joinLines_cons, List.append_assoc, List.append_assoc,
        Text.linesOf_eol_append (h l List.mem_cons_self),
        ih fun m hm => h m (List.mem_cons_of_mem _ hm)]
      rfl

theorem inert_joinLines {ls : Lines} (h : ∀ l ∈ ls, Inert l.toList) :
    Inert (joinLines e.sequence ls).toList := by
  induction ls with
  | nil => exact inert_nil
  | cons l ls ih =>
      rw [toList_joinLines_cons]
      exact (h l List.mem_cons_self).append
        ((inert_eol e).append (ih fun m hm => h m (List.mem_cons_of_mem _ hm)))

/-! ## Fronts -/

/-- A text with the imports it uses; an import of nothing may be dropped. -/
def finishChars (drop : Bool) (cs : List Char) : List Char :=
  if drop then removeEmptyChars (pruneChars baseClass.toList cs) else pruneChars baseClass.toList cs

/-- The statement that takes names from a package. -/
def taken (names package : String) : Statement := ⟨.braced names, package⟩

/-- Neither blanks nor marks stand in the text. -/
def Solid (s : String) : Prop := ∀ c ∈ s.toList, isBlank c = false ∧ c ∉ Naming.quoteMarks

instance (s : String) : Decidable (Solid s) :=
  List.decidableBAll (fun c => isBlank c = false ∧ c ∉ Naming.quoteMarks) s.toList

theorem Solid.oneLine {s : String} (h : Solid s) : OneLine s.toList := by
  intro c hc
  constructor <;> rintro rfl <;> exact (h _ hc).2 (by decide)

/-- Names that are taken from a package, as a text begins with them. -/
structure Taken (names package : String) : Prop where
  solid : Solid names
  path : Quotable package
  foreign : package.toList.head? ≠ some '.'

theorem Taken.plain {names package : String} (h : Taken names package) :
    (taken names package).Plain := by
  refine ⟨fun name hname c hc => ?_, h.path⟩
  have hsymbol : some names = some name := hname
  rw [← Option.some.inj hsymbol] at hc
  exact (h.solid c hc).2

theorem line_taken (names package : String) : (taken names package).line.toList =
    "import ".toList ++ '\x7b' :: (names.toList ++ '\x7d' :: (" from \"" ++ package ++ "\";").toList) := by
  have hopen : "import \x7b".toList = "import ".toList ++ ['\x7b'] := by decide
  have hclose : "\x7d from ".toList ++ "\"".toList = '\x7d' :: " from \"".toList := by decide
  show ("import \x7b" ++ names ++ "\x7d from " ++ "\"" ++ package ++ "\";").toList = _
  simp only [String.toList_append, hopen, List.append_assoc, List.singleton_append]
  rw [← List.append_assoc "\x7d from ".toList, hclose]
  simp only [List.cons_append]

/-- Pruning leaves some of the names at the front, and all that follows. -/
theorem exists_pruned {names package : String} (h : Taken names package) (base r : List Char) :
    ∃ left, Taken left package ∧
      pruneChars base ((taken names package).line.toList ++ r) =
        (taken left package).line.toList ++ r := by
  have hfree : '\x7d' ∉ names.toList := fun hm => (h.solid _ hm).2 (by decide)
  have hbefore : '\x7b' ∉ "import ".toList := by decide
  have hsplit := pruneChars_group base hbefore hfree
    ((" from \"" ++ package ++ "\";").toList ++ r)
  refine ⟨String.ofList (joinNames (kept base names.toList
    ('\x7d' :: ((" from \"" ++ package ++ "\";").toList ++ r)))), ⟨?_, h.path, h.foreign⟩, ?_⟩
  · intro c hc
    rw [String.toList_ofList] at hc
    rcases mem_of_mem_kept hc with rfl | hc
    · decide
    · exact h.solid c hc
  · rw [line_taken, line_taken, String.toList_ofList]
    simpa using hsplit

/-- An import from a package is removed with its line if it takes nothing, and otherwise stays. -/
theorem removeEmptyChars_taken {names package : String} (h : Taken names package) (e : Eol)
    (r : List Char) :
    removeEmptyChars ((taken names package).line.toList ++ (e.sequence.toList ++ r)) =
      if names = "" then r
      else (taken names package).line.toList ++ (e.sequence.toList ++ removeEmptyChars r) := by
  split
  · rename_i hempty
    subst hempty
    have hquote : Unquoted package.toList := unquoted_of_quotable h.path
    have hsingle : '\x27' ∉ package.toList := fun hm => h.path _ hm (by decide)
    have htext : (taken "" package).line.toList =
        "import \x7b\x7d from \"".toList ++ (package.toList ++ "\";".toList) := by
      rw [line_taken]
      simp
    rw [htext, removeEmptyChars_nothing hquote hsingle e r]
  · rename_i hfilled
    have hsubstantial : (taken names package).clause.Substantial := by
      intro hblank
      cases hnames : names.toList with
      | nil => exact hfilled (String.toList_injective hnames)
      | cons c cs =>
          have hc : c ∈ names.toList := hnames ▸ List.mem_cons_self
          have hsolid := (h.solid c hc).1
          rw [hblank c hc] at hsolid
          exact absurd hsolid (by simp)
    rw [removeEmptyChars_inert (inert_line h.plain hsubstantial), removeEmptyChars_inert (inert_eol e)]

/-- **What a finished text begins with**: a statement about a package or nothing, and then what
    followed it, or what is left of that without an import of nothing. -/
theorem exists_front {names package : String} (h : Taken names package) (drop : Bool) (r : List Char) :
    ∃ ss : List Statement, (∀ s ∈ ss, s.Plain ∧ s.isLocal = false) ∧
      ∃ r', (r' = r ∨ r' = removeEmptyChars r) ∧
        finishChars drop ((taken names package).line.toList ++ (e.sequence.toList ++ r)) =
          (joinLines e.sequence (ss.map Statement.line)).toList ++ r' := by
  obtain ⟨left, hleft, hpruned⟩ := exists_pruned h baseClass.toList (e.sequence.toList ++ r)
  have hforeign : (taken left package).isLocal = false := decide_eq_false hleft.foreign
  have hone : ∀ s ∈ [taken left package], s.Plain ∧ s.isLocal = false := by
    intro s hs
    rw [List.mem_singleton.mp hs]
    exact ⟨hleft.plain, hforeign⟩
  have hline : ∀ r', (joinLines e.sequence ([taken left package].map Statement.line)).toList ++ r' =
      (taken left package).line.toList ++ (e.sequence.toList ++ r') := by
    intro r'
    rw [List.map_cons, toList_joinLines_cons]
    simp [joinLines, Text.concat]
  unfold finishChars
  rw [hpruned]
  cases drop with
  | false => exact ⟨_, hone, r, .inl rfl, (hline r).symm⟩
  | true =>
      rw [if_pos rfl, removeEmptyChars_taken hleft]
      by_cases hempty : left = ""
      · -- all names are gone, and the statement with them
        rw [if_pos hempty]
        exact ⟨[], fun _ hs => absurd hs List.not_mem_nil, r, .inl rfl, rfl⟩
      · rw [if_neg hempty]
        exact ⟨_, hone, removeEmptyChars r, .inr rfl, (hline _).symm⟩

theorem leading_blank (r : List (List Char)) : leading ([] :: r) = [] := rfl

/-- Statements at the front of a text are read up to the blank line behind them. -/
theorem imports_statements {ss : List Statement} (hss : ∀ s ∈ ss, s.Plain) (r : List Char) :
    imports (String.ofList ((joinLines e.sequence (ss.map Statement.line ++ [""])).toList ++ r)) =
      ss := by
  have hone : ∀ m ∈ ss.map Statement.line ++ [""], OneLine m.toList := by
    intro m hm
    rcases List.mem_append.mp hm with hm | hm
    · obtain ⟨s, hs, rfl⟩ := List.mem_map.mp hm
      exact oneLine_line (hss s hs)
    · rw [List.mem_singleton.mp hm]
      decide
  have hread := leading_append hss ([] :: linesOf r)
  rw [leading_blank, List.append_nil] at hread
  unfold imports
  rw [String.toList_ofList, linesOf_joinLines hone]
  simpa [Function.comp_def] using hread

/-- **Finishing leaves the statements about files.** They stand at the front, before a blank line. -/
theorem references_finishChars (hp : IsLineEnding p) {names package : String}
    (h : Taken names package) {ss : List Statement}
    (hss : ∀ s ∈ ss, s.Plain ∧ s.clause.Substantial) {l : String}
    (hl : l.toList.head? ≠ some '\n') (rest : Lines) (drop : Bool) :
    references (String.ofList (finishChars drop (recast e p
      (joinLines p ((taken names package).line :: ss.map Statement.line ++ "" :: l :: rest)).toList))) =
      ss.filter Statement.isLocal := by
  have hlines : ∀ m ∈ ss.map Statement.line ++ [""], OneLine m.toList ∧ Inert m.toList := by
    intro m hm
    rcases List.mem_append.mp hm with hm | hm
    · obtain ⟨s, hs, rfl⟩ := List.mem_map.mp hm
      exact ⟨oneLine_line (hss s hs).1, inert_line (hss s hs).1 (hss s hs).2⟩
    · rw [List.mem_singleton.mp hm]
      exact ⟨by decide, inert_nil⟩
  have hrecast : recast e p
      (joinLines p ((taken names package).line :: ss.map Statement.line ++ "" :: l :: rest)).toList =
      (taken names package).line.toList ++ (e.sequence.toList ++
        ((joinLines e.sequence (ss.map Statement.line ++ [""])).toList ++
          recast e p (joinLines p (l :: rest)).toList)) := by
    have hsplit := recast_joinLines (e := e) hp
      (List.forall_mem_cons.mpr ⟨oneLine_line h.plain, fun m hm => (hlines m hm).1⟩)
      (apart_joinLines (p := p) hl rest)
    rw [toList_joinLines_cons] at hsplit
    simpa using hsplit
  -- finishing changes the first line, and leaves the others, in which nothing begins
  obtain ⟨front, hfront, r', hr', htext⟩ := exists_front (e := e) h drop
    ((joinLines e.sequence (ss.map Statement.line ++ [""])).toList ++
      recast e p (joinLines p (l :: rest)).toList)
  have hkept : ∃ r'', r' = (joinLines e.sequence (ss.map Statement.line ++ [""])).toList ++ r'' := by
    rcases hr' with rfl | rfl
    · exact ⟨_, rfl⟩
    · exact ⟨_, removeEmptyChars_inert (inert_joinLines fun m hm => (hlines m hm).2) _⟩
  obtain ⟨r'', rfl⟩ := hkept
  have hplain : ∀ s ∈ front ++ ss, s.Plain :=
    List.forall_mem_append.mpr ⟨fun s hs => (hfront s hs).1, fun s hs => (hss s hs).1⟩
  have hread := imports_statements (e := e) hplain r''
  rw [List.map_append, List.append_assoc, toList_joinLines_append, List.append_assoc] at hread
  have hforeign : front.filter Statement.isLocal = [] := by
    rw [List.filter_eq_nil_iff]
    intro s hs
    simp [(hfront s hs).2]
  unfold references
  rw [hrecast, htext, hread, List.filter_append, hforeign, List.nil_append]

/-! ## Classes -/

/-- A line that is told from what stands around it. -/
structure Standing (l : List Char) : Prop where
  oneLine : OneLine l
  nonempty : l ≠ []
  inert : Inert l

theorem Standing.mem_linesOf {l : List Char} (h : Standing l) (e : Eol) (v r : List Char) :
    l ∈ linesOf (v ++ (e.sequence.toList ++ (l ++ (e.sequence.toList ++ r)))) := by
  have hmem := Text.mem_linesOf h.oneLine h.nonempty e v r
  simpa using hmem

theorem Standing.head?_append_ne {l : List Char} (h : Standing l) (r : List Char) :
    (l ++ r).head? ≠ some '\n' := by
  cases l with
  | nil => exact absurd rfl h.nonempty
  | cons c l =>
      have hc := (h.oneLine c List.mem_cons_self).1
      simpa using hc

theorem exists_recast_line (hp : IsLineEnding p) {l : List Char} (h : Standing l) (r : List Char) :
    ∃ r', recast e p (l ++ (p.toList ++ r)) = l ++ (e.sequence.toList ++ r') := by
  obtain ⟨r', hr'⟩ := Text.exists_recast_ending_append (e := e) hp r
  exact ⟨r', by rw [Text.recast_oneLine_append h.oneLine, hr']⟩

/-- What stands behind a standing line is all that removing an import of nothing may change. -/
theorem Standing.removeEmptyChars_append {l : List Char} (h : Standing l) (e : Eol) (r : List Char) :
    removeEmptyChars (l ++ (e.sequence.toList ++ r)) =
      l ++ (e.sequence.toList ++ removeEmptyChars r) := by
  rw [removeEmptyChars_inert h.inert, removeEmptyChars_inert (inert_eol e)]

/-- A line behind a closing parenthesis stays. -/
theorem Standing.mem_linesOf_paren {l : List Char} (h : Standing l) (e : Eol) (u r : List Char) :
    l ∈ linesOf (removeEmptyChars
      (u ++ ')' :: (e.sequence.toList ++ (l ++ (e.sequence.toList ++ r))))) := by
  have hbehind : ∀ v r', l ∈ linesOf
      (v ++ ')' :: (e.sequence.toList ++ (l ++ (e.sequence.toList ++ r')))) := by
    intro v r'
    have hmem := h.mem_linesOf e (v ++ [')']) r'
    simpa using hmem
  obtain ⟨v, hv | hv | ⟨hsemicolon, -⟩⟩ :=
    removeEmptyChars_stop (.inl rfl) u (l ++ (e.sequence.toList ++ r)) e
  · rw [hv]
    exact hbehind v r
  · rw [hv, h.removeEmptyChars_append]
    exact hbehind v _
  · exact absurd hsemicolon (by decide)

/-- A line behind a statement and a blank line stays. -/
theorem Standing.mem_linesOf_blank {l : List Char} (h : Standing l) (e : Eol) (u r : List Char) :
    l ∈ linesOf (removeEmptyChars (u ++ ';' ::
      (e.sequence.toList ++ (e.sequence.toList ++ (l ++ (e.sequence.toList ++ r)))))) := by
  have hbehind : ∀ v r', l ∈ linesOf (v ++ ';' :: (e.sequence.toList ++
      (e.sequence.toList ++ (l ++ (e.sequence.toList ++ r'))))) := by
    intro v r'
    have hmem := h.mem_linesOf e (v ++ ';' :: e.sequence.toList) r'
    simpa using hmem
  obtain ⟨v, hv | hv | ⟨-, hv⟩⟩ := removeEmptyChars_stop (.inr rfl) u
    (e.sequence.toList ++ (l ++ (e.sequence.toList ++ r))) e
  · rw [hv]
    exact hbehind v r
  · rw [hv, removeEmptyChars_inert (inert_eol e), h.removeEmptyChars_append]
    exact hbehind v _
  · rw [hv]
    exact h.mem_linesOf e v r

/-- The line ending behind a standing line, and the one or two before it, are those that were chosen. -/
theorem exists_recast_gap (hp : IsLineEnding p) {l : List Char} (hl : Standing l) {c : Char}
    {gap : List Char} (hgap : c = ')' ∧ gap = [] ∨ c = ';' ∧ gap = p.toList) (r : List Char) :
    ∃ r', recast e p (p.toList ++ (gap ++ (l ++ (p.toList ++ r)))) =
      e.sequence.toList ++ ((if c = ')' then [] else e.sequence.toList) ++
        (l ++ (e.sequence.toList ++ r'))) := by
  obtain ⟨r', hr'⟩ := exists_recast_line hp hl (e := e) r
  have hline : Apart p (l ++ (p.toList ++ r)) := fun _ => hl.head?_append_ne _
  refine ⟨r', ?_⟩
  rcases hgap with ⟨rfl, rfl⟩ | ⟨rfl, rfl⟩
  · rw [List.nil_append, Text.recast_ending_append hp hline, hr']
    rfl
  · have hblank : Apart p (p.toList ++ (l ++ (p.toList ++ r))) := by
      rintro rfl
      simp
    rw [Text.recast_ending_append hp hblank, Text.recast_ending_append hp hline, hr']
    rfl

/-- **Finishing leaves a line that follows the decorator of a class**, or the imports and a blank line. -/
theorem mem_linesOf_finishChars (hp : IsLineEnding p) {names package : String}
    (h : Taken names package) {l : List Char} (hl : Standing l) {c : Char} {gap : List Char}
    (hgap : c = ')' ∧ gap = [] ∨ c = ';' ∧ gap = p.toList) (a r : List Char) (drop : Bool) :
    l ∈ linesOf (finishChars drop (recast e p ("import ".toList ++ '\x7b' :: (names.toList ++
      '\x7d' :: (a ++ c :: (p.toList ++ (gap ++ (l ++ (p.toList ++ r))))))))) := by
  have hfront : OneLine ("import ".toList ++ '\x7b' :: (names.toList ++ ['\x7d'])) := by
    refine OneLine.append (by decide) (OneLine.append (a := ['\x7b']) (by decide)
      (OneLine.append h.solid.oneLine (by decide)))
  obtain ⟨r', hbreaks⟩ := exists_recast_gap (e := e) hp hl hgap r
  have hc : c ≠ '\n' ∧ c ≠ '\r' := by
    rcases hgap with ⟨rfl, -⟩ | ⟨rfl, -⟩ <;> decide
  have hrecast : recast e p ("import ".toList ++ '\x7b' :: (names.toList ++
      '\x7d' :: (a ++ c :: (p.toList ++ (gap ++ (l ++ (p.toList ++ r))))))) =
      "import ".toList ++ '\x7b' :: (names.toList ++ '\x7d' :: (recast e p a ++ c ::
        (e.sequence.toList ++ ((if c = ')' then [] else e.sequence.toList) ++
          (l ++ (e.sequence.toList ++ r')))))) := by
    have hsplit := Text.recast_oneLine_append (e := e) (p := p) hfront
      (a ++ c :: (p.toList ++ (gap ++ (l ++ (p.toList ++ r)))))
    rw [Text.recast_append_cons hc.1 hc.2, hbreaks] at hsplit
    simpa using hsplit
  have hbefore : '\x7b' ∉ "import ".toList := by decide
  have hfree : '\x7d' ∉ names.toList := fun hm => (h.solid _ hm).2 (by decide)
  -- pruning changes the names at the front only
  unfold finishChars
  rw [hrecast, pruneChars_group _ hbefore hfree]
  generalize joinNames _ = left
  have htext : ∀ z, "import ".toList ++ '\x7b' :: (left ++ '\x7d' :: (recast e p a ++ c :: z)) =
      ("import ".toList ++ '\x7b' :: (left ++ '\x7d' :: recast e p a)) ++ c :: z := by
    intro z
    simp
  rw [htext]
  rcases hgap with ⟨rfl, -⟩ | ⟨rfl, -⟩
  · cases drop with
    | true => exact hl.mem_linesOf_paren e _ r'
    | false =>
        have hmem := hl.mem_linesOf e
          (("import ".toList ++ '\x7b' :: (left ++ '\x7d' :: recast e p a)) ++ [')']) r'
        simpa using hmem
  · cases drop with
    | true => exact hl.mem_linesOf_blank e _ r'
    | false =>
        have hmem := hl.mem_linesOf e (("import ".toList ++ '\x7b' :: (left ++ '\x7d' ::
          recast e p a)) ++ ';' :: e.sequence.toList) r'
        simpa using hmem

/-- The declaration of a class stays behind its decorator. -/
theorem mem_linesOf_decorated (hp : IsLineEnding p) {names package : String}
    (h : Taken names package) {l : String} (hl : Standing l.toList) (mid : Lines) (decorator : String)
    (rest : Lines) (drop : Bool) :
    l.toList ∈ linesOf (finishChars drop (recast e p (joinLines p
      ((taken names package).line :: (mid ++ (decorator ++ ")") :: l :: rest))).toList)) := by
  have hmem := mem_linesOf_finishChars (e := e) hp h hl (.inl ⟨rfl, rfl⟩)
    ((" from \"" ++ package ++ "\";").toList ++ (p.toList ++
      ((joinLines p mid).toList ++ decorator.toList))) (joinLines p rest).toList drop
  rw [toList_joinLines_cons, toList_joinLines_append, toList_joinLines_cons, toList_joinLines_cons,
    line_taken]
  simpa using hmem

/-- The declaration of a class stays behind statements and a blank line. -/
theorem mem_linesOf_imported (hp : IsLineEnding p) {names package : String}
    (h : Taken names package) {l : String} (hl : Standing l.toList) {mid : Lines}
    (hmid : ∀ m ∈ mid, ∃ front, m = front ++ ";") (rest : Lines) (drop : Bool) :
    l.toList ∈ linesOf (finishChars drop (recast e p (joinLines p
      ((taken names package).line :: (mid ++ "" :: l :: rest))).toList)) := by
  -- the semicolon is that of the last statement
  have hlast : ∃ a, (" from \"" ++ package ++ "\";").toList ++ (p.toList ++ (joinLines p mid).toList) =
      a ++ ';' :: p.toList := by
    rcases List.eq_nil_or_concat mid with rfl | ⟨front, m, rfl⟩
    · refine ⟨(" from \"" ++ package ++ "\"").toList, ?_⟩
      simp [joinLines, Text.concat]
    · obtain ⟨m', rfl⟩ := hmid m (by simp)
      refine ⟨(" from \"" ++ package ++ "\";").toList ++ (p.toList ++
        ((joinLines p front).toList ++ m'.toList)), ?_⟩
      rw [List.concat_eq_append, toList_joinLines_append, toList_joinLines_cons]
      simp [joinLines, Text.concat]
  obtain ⟨a, ha⟩ := hlast
  have hmem := mem_linesOf_finishChars (e := e) hp h hl (.inr ⟨rfl, rfl⟩) a
    (joinLines p rest).toList drop
  have htext : (joinLines p ((taken names package).line :: (mid ++ "" :: l :: rest))).toList =
      "import ".toList ++ '\x7b' :: (names.toList ++ '\x7d' :: (a ++ ';' :: (p.toList ++
        (p.toList ++ (l.toList ++ (p.toList ++ (joinLines p rest).toList)))))) := by
    rw [toList_joinLines_cons, toList_joinLines_append, toList_joinLines_cons, toList_joinLines_cons,
      line_taken]
    have hjoin := congrArg (· ++ (p.toList ++ (l.toList ++ (p.toList ++ (joinLines p rest).toList)))) ha
    simpa using hjoin
  rw [htext]
  exact hmem

end Scaffold.Source
