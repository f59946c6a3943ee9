import Mathlib.Data.List.Basic
import Scaffold.Proofs.Source.Statement
import Scaffold.Source.Imports

/-!
# `Scaffold.Proofs.Source.Imports` — what pruning leaves as it was

Pruning changes what stands in the first braces of a text and nothing else (`pruneChars_group`).
Removing an import of nothing looks for one from the front. Most texts hold no place where one could
begin, whatever follows them (`Inert`), and a match that begins before a closing parenthesis or a
semicolon at the end of a line ends there as well (`removeEmptyChars_stop`).

## Contents
- **Pruning.** `kept`, `pruneChars_group`, `mem_of_mem_kept`.
- **Beginnings.** `Opens`, `opens_of_match`, `Inert`, `inert_of_end`, `inert_brace_append`,
  `inert_of_group`, `inert_line`, `removeEmptyChars_inert`.
- **Ends.** `removeEmptyChars_nothing`, `match_stop`, `removeEmptyChars_stop`.
-/

namespace Scaffold.Source

open Naming (Quotable)
open Text (Eol isBlank dropPat? splitOn)

/-! ## Pruning -/

/-- The names that pruning leaves in a group before `rest`. -/
def kept (base group rest : List Char) : List (List Char) :=
  (groupNames group).filter (isUsed base rest)

theorem splitGroup?_append {before group : List Char} (hb : '\x7b' ∉ before) (hg : '\x7d' ∉ group)
    (rest : List Char) :
    splitGroup? (before ++ '\x7b' :: (group ++ '\x7d' :: rest)) =
      some (before ++ ['\x7b'], group, '\x7d' :: rest) := by
  unfold splitGroup?
  rw [breakOn_append hb]
  simp only [breakOn_append hg, Option.map_some]

/-- **Pruning changes the first group and nothing else.** -/
theorem pruneChars_group (base : List Char) {before group : List Char} (hb : '\x7b' ∉ before)
    (hg : '\x7d' ∉ group) (rest : List Char) :
    pruneChars base (before ++ '\x7b' :: (group ++ '\x7d' :: rest)) =
      before ++ '\x7b' :: (joinNames (kept base group ('\x7d' :: rest)) ++ '\x7d' :: rest) := by
  unfold pruneChars
  rw [splitGroup?_append hb hg]
  simp [kept]

theorem mem_joinNames {ns : List (List Char)} {c : Char} (h : c ∈ joinNames ns) :
    c = ',' ∨ ∃ n ∈ ns, c ∈ n := by
  fun_induction joinNames ns with
  | case1 => exact absurd h List.not_mem_nil
  | case2 n => exact .inr ⟨n, List.mem_cons_self, h⟩
  | case3 n m r ih =>
      rcases List.mem_append.mp h with h | h
      · exact .inr ⟨n, List.mem_cons_self, h⟩
      · rcases List.mem_cons.mp h with h | h
        · exact .inl h
        · rcases ih h with h | ⟨x, hx, hc⟩
          · exact .inl h
          · exact .inr ⟨x, List.mem_cons_of_mem _ hx, hc⟩

theorem mem_trim {cs : List Char} {c : Char} (h : c ∈ Text.trim cs) : c ∈ cs := by
  unfold Text.trim Text.trimRight Text.trimLeft at h
  rw [List.mem_reverse] at h
  have hleft := List.mem_reverse.mp ((List.dropWhile_sublist _).subset h)
  exact (List.dropWhile_sublist _).subset hleft

/-- The characters that are kept were there before. -/
theorem mem_of_mem_kept {base group rest : List Char} {c : Char}
    (h : c ∈ joinNames (kept base group rest)) : c = ',' ∨ c ∈ group := by
  rcases mem_joinNames h with h | ⟨n, hn, hc⟩
  · exact .inl h
  · obtain ⟨w, hw, rfl⟩ := List.mem_map.mp (List.mem_filter.mp hn).1
    exact .inr (Text.mem_of_mem_splitOn hw c (mem_trim hc))

/-! ## Beginnings -/

/-- All characters are blanks. -/
def Blank (cs : List Char) : Prop := ∀ c ∈ cs, isBlank c = true

instance (cs : List Char) : Decidable (Blank cs) :=
  List.decidableBAll (fun c => isBlank c = true) cs

/-- The text begins as an import of nothing does, as far as the closing brace. -/
def Opens (cs : List Char) : Prop :=
  ∃ b b' r, cs = "import".toList ++ (b ++ '\x7b' :: (b' ++ '\x7d' :: r)) ∧ Blank b ∧ Blank b'

theorem dropPat?_eq_some {pat cs r : List Char} (h : dropPat? pat cs = some r) : cs = pat ++ r := by
  induction pat generalizing cs with
  | nil =>
      cases cs <;> exact Option.some.inj h
  | cons p pat ih =>
      cases cs with
      | nil => exact absurd h (by simp [dropPat?])
      | cons c cs =>
          rw [dropPat?] at h
          split at h
          · rename_i hc
            rw [hc, ih h]
            rfl
          · exact absurd h (by simp)

/-- Blanks at the front are told from what follows. -/
theorem exists_blank (cs : List Char) : ∃ b, cs = b ++ cs.dropWhile isBlank ∧ Blank b := by
  refine ⟨cs.takeWhile isBlank, List.takeWhile_append_dropWhile.symm, fun c hc => ?_⟩
  exact List.all_eq_true.mp List.all_takeWhile c hc

theorem dropWord?_eq_some {word : String} {cs r : List Char} (h : dropWord? word cs = some r) :
    ∃ b, cs = b ++ (word.toList ++ r) ∧ Blank b := by
  obtain ⟨b, hb, hblank⟩ := exists_blank cs
  refine ⟨b, ?_, hblank⟩
  rw [← dropPat?_eq_some h]
  exact hb

/-- What is matched begins as an import of nothing. -/
theorem opens_of_match {cs r : List Char} (h : matchEmptyImport? cs = some r) : Opens cs := by
  unfold matchEmptyImport? at h
  simp only [bind, Option.bind_eq_some_iff] at h
  obtain ⟨r₁, h₁, r₂, h₂, r₃, h₃, -⟩ := h
  obtain ⟨b, hb, hblank⟩ := dropWord?_eq_some h₂
  obtain ⟨b', hb', hblank'⟩ := dropWord?_eq_some h₃
  refine ⟨b, b', r₃, ?_, hblank, hblank'⟩
  rw [dropPat?_eq_some h₁, hb, hb']
  rfl

/-- No import of nothing begins in a text, whatever follows it. -/
def Inert (cs : List Char) : Prop :=
  ∀ front c back, cs = front ++ c :: back → ∀ r, ¬ Opens (c :: (back ++ r))

theorem inert_nil : Inert [] := fun front c back h => absurd h (by simp)

theorem Inert.append {a b : List Char} (ha : Inert a) (hb : Inert b) : Inert (a ++ b) := by
  intro front c back h r
  rcases List.append_eq_append_iff.mp h with ⟨m, rfl, hm⟩ | ⟨m, rfl, hm⟩
  · -- the place lies in `b`
    exact hb m c back hm r
  · cases m with
    | nil =>
        rw [List.nil_append] at hm
        exact hb [] c back hm.symm r
    | cons d m =>
        rw [List.cons_append] at hm
        obtain ⟨rfl, rfl⟩ := List.cons.inj hm
        rw [List.append_assoc]
        exact ha front c m rfl (b ++ r)

theorem not_mem_import {c : Char} (h : c ∉ "import".toList) {b : List Char} (hb : Blank b)
    (hc : isBlank c = false) : c ∉ "import".toList ++ b := by
  intro hm
  rcases List.mem_append.mp hm with hm | hm
  · exact h hm
  · rw [hb c hm] at hc
    exact absurd hc (by simp)

/-- A text without an opening brace is inert if it ends with a character that stands in no import
    before the brace. -/
theorem inert_of_end {u : List Char} (hu : '\x7b' ∉ u) {c : Char} (hbrace : c ≠ '\x7b')
    (himport : c ∉ "import".toList) (hblank : isBlank c = false) : Inert (u ++ [c]) := by
  rintro front d back h r ⟨b, b', r', heq, hb, -⟩
  -- the last character stands before the brace of the match
  have hmem : c ∈ d :: back := by
    have hlast := congrArg List.getLast? h
    rw [List.getLast?_concat, List.getLast?_append_cons] at hlast
    exact List.mem_of_getLast? hlast.symm
  have hfree : '\x7b' ∉ d :: back := by
    intro hm
    have : '\x7b' ∈ u ++ [c] := h ▸ List.mem_append_right _ hm
    rcases List.mem_append.mp this with hm | hm
    · exact hu hm
    · exact hbrace (List.mem_singleton.mp hm).symm
  rw [← List.cons_append, ← List.append_assoc] at heq
  rcases List.append_eq_append_iff.mp heq with ⟨m, hm, -⟩ | ⟨m, hm, hrest⟩
  · exact not_mem_import himport hb hblank (hm ▸ List.mem_append_left _ hmem)
  · cases m with
    | nil =>
        rw [List.append_nil] at hm
        exact not_mem_import himport hb hblank (hm ▸ hmem)
    | cons e m =>
        obtain ⟨rfl, -⟩ := List.cons.inj hrest
        exact hfree (hm ▸ List.mem_append_right _ List.mem_cons_self)

/-- A text in which no match can begin since there is no `i`. -/
theorem inert_of_not_mem {cs : List Char} (h : 'i' ∉ cs) : Inert cs := by
  rintro front c back heq r ⟨b, b', r', hopen, -, -⟩
  have hc : c = 'i' := (List.cons.inj hopen).1
  exact h (heq ▸ hc ▸ List.mem_append_right _ List.mem_cons_self)

theorem eq_of_append_cons {c : Char} {a a' b b' : List Char} (ha : c ∉ a) (ha' : c ∉ a')
    (h : a ++ c :: b = a' ++ c :: b') : a = a' ∧ b = b' := by
  have hbreak := breakOn_append ha b
  rw [h, breakOn_append ha'] at hbreak
  have hpair := Option.some.inj hbreak
  exact ⟨(congrArg Prod.fst hpair).symm, (congrArg Prod.snd hpair).symm⟩

/-- The first brace of a text in which an import of nothing begins is that of the import. -/
theorem Opens.of_brace {u z : List Char} (hu : '\x7b' ∉ u) (h : Opens (u ++ '\x7b' :: z)) :
    ∃ b b' r, u = "import".toList ++ b ∧ z = b' ++ '\x7d' :: r ∧ Blank b ∧ Blank b' := by
  obtain ⟨b, b', r, heq, hb, hb'⟩ := h
  rw [← List.append_assoc] at heq
  obtain ⟨hword, hrest⟩ := eq_of_append_cons hu (not_mem_import (by decide) hb (by decide)) heq
  exact ⟨b, b', r, hword, hrest, hb, hb'⟩

theorem not_opens_brace (z : List Char) : ¬ Opens ('\x7b' :: z) := by
  intro h
  obtain ⟨b, -, -, hword, -⟩ := Opens.of_brace (u := []) List.not_mem_nil h
  exact nomatch hword

/-- **A text is inert up to its first brace and behind it** if what is behind the brace is, and either
    the word before the brace is no `import` or there is more than blanks between the braces. -/
theorem inert_brace_append {u w : List Char} (hu : '\x7b' ∉ u) (hw : Inert w)
    (h : ∀ front b, u = front ++ ("import".toList ++ b) → Blank b →
      ∀ r b' r', w ++ r = b' ++ '\x7d' :: r' → ¬ Blank b') : Inert (u ++ '\x7b' :: w) := by
  intro front c back heq r hopens
  rcases List.append_eq_append_iff.mp heq with ⟨m, rfl, hm⟩ | ⟨m, rfl, hm⟩
  · cases m with
    | nil =>
        obtain ⟨rfl, -⟩ := List.cons.inj hm
        exact not_opens_brace _ hopens
    | cons d m => exact hw m c back (List.cons.inj hm).2 r hopens
  · cases m with
    | nil =>
        obtain ⟨rfl, -⟩ := List.cons.inj hm
        exact not_opens_brace _ hopens
    | cons d m =>
        -- the place lies before the brace, so a match takes the brace for its own
        rw [List.cons_append] at hm
        obtain ⟨rfl, rfl⟩ := List.cons.inj hm
        rw [List.append_assoc, List.cons_append, ← List.cons_append] at hopens
        have hfree : '\x7b' ∉ c :: m := fun hm => hu (List.mem_append_right _ hm)
        obtain ⟨b, b', r', hword, hrest, hb, hb'⟩ := hopens.of_brace hfree
        exact h front b (congrArg (front ++ ·) hword) hb r b' r' hrest hb'

/-- Braces that hold more than blanks are inert, with what stands before them. -/
theorem inert_of_group {u n : List Char} (hu : '\x7b' ∉ u) (hopen : '\x7b' ∉ n) (hclose : '\x7d' ∉ n)
    (hn : ¬ Blank n) : Inert (u ++ '\x7b' :: (n ++ ['\x7d'])) := by
  refine inert_brace_append hu (inert_of_end hopen (by decide) (by decide) (by decide)) ?_
  intro _ _ _ _ r b' r' hrest hb'
  have hfree : '\x7d' ∉ b' := fun hm => absurd (hb' _ hm) (by decide)
  rw [List.append_assoc, List.singleton_append] at hrest
  -- the braces of the match are those of the group, which hold more than blanks
  obtain ⟨hgroup, -⟩ := eq_of_append_cons hclose hfree hrest
  exact hn (hgroup ▸ hb')

/-- The last character of a text that is no blank. -/
def lastSolid? (cs : List Char) : Option Char := (cs.reverse.dropWhile isBlank).head?

theorem lastSolid?_append {c : Char} (hc : isBlank c = false) {b : List Char} (hb : Blank b)
    (a : List Char) : lastSolid? (a ++ c :: b) = some c := by
  have hreverse : (a ++ c :: b).reverse = b.reverse ++ c :: a.reverse := by simp
  have hblank : ∀ d ∈ b.reverse, isBlank d = true := fun d hd => hb d (List.mem_reverse.mp hd)
  unfold lastSolid?
  rw [hreverse, List.dropWhile_append_of_pos hblank, List.dropWhile_cons_of_neg (by simp [hc])]
  rfl

/-- A brace at the end begins nothing if the last word before it does not end as `import` does. -/
theorem inert_of_brace {u : List Char} (hu : '\x7b' ∉ u) (hlast : lastSolid? u ≠ some 't') :
    Inert (u ++ ['\x7b']) := by
  refine inert_brace_append hu inert_nil ?_
  intro front b hword hb
  have hsolid : u = (front ++ "impor".toList) ++ 't' :: b := by
    rw [hword]
    simp
  exact absurd (hsolid ▸ lastSolid?_append (by decide) hb _) hlast

theorem inert_eol (e : Eol) : Inert e.sequence.toList := by
  refine inert_of_not_mem ?_
  cases e <;> decide

/-- A clause that takes something. -/
def Clause.Substantial : Clause → Prop
  | .braced names => ¬ Blank names.toList
  | _ => True

/-- A quoted path is inert with what stands before it, if that holds no opening brace. -/
theorem inert_path {path : String} (hpath : Quotable path) {word : List Char} (hword : '\x7b' ∉ word) :
    Inert (word ++ ("\"" ++ path ++ "\";").toList) := by
  have hend : word ++ ("\"" ++ path ++ "\";").toList =
      (word ++ '\x22' :: (path.toList ++ ['\x22'])) ++ [';'] := by simp
  rw [hend]
  refine inert_of_end ?_ (by decide) (by decide) (by decide)
  intro hm
  rcases List.mem_append.mp hm with hm | hm
  · exact hword hm
  · rcases List.mem_cons.mp hm with hm | hm
    · exact absurd hm (by decide)
    · rcases List.mem_append.mp hm with hm | hm
      · exact hpath _ hm (by decide)
      · exact absurd hm (by decide)

/-- Braces that hold more than blanks are inert with the path behind them. -/
theorem inert_braces {path : String} (hpath : Quotable path) {front names : List Char}
    (hfront : '\x7b' ∉ front) (hnames : ¬ Blank names) (hopen : '\x7b' ∉ names)
    (hclose : '\x7d' ∉ names) : Inert ((front ++ '\x7b' :: (names ++ ['\x7d'])) ++
      (" from ".toList ++ ("\"" ++ path ++ "\";").toList)) :=
  (inert_of_group hfront hopen hclose hnames).append (inert_path hpath (by decide))

/-- **A statement that takes something is inert.** -/
theorem inert_line {s : Statement} (h : s.Plain) (hs : s.clause.Substantial) :
    Inert s.line.toList := by
  have hsymbol : ∀ name, s.clause.symbol? = some name →
      '\x7b' ∉ name.toList ∧ '\x7d' ∉ name.toList := by
    intro name hname
    exact ⟨fun hm => h.symbol name hname _ hm (by decide),
      fun hm => h.symbol name hname _ hm (by decide)⟩
  unfold Statement.line
  -- only the clause can hold braces, and the path behind it begins nothing
  cases hclause : s.clause with
  | everything =>
      have hfree : '\x7b' ∉ Clause.everything.front.toList := by decide
      have hread := inert_path h.path hfree
      simpa using hread
  | default name =>
      obtain ⟨hopen, -⟩ := hsymbol name (by rw [hclause]; rfl)
      have hfree : '\x7b' ∉ (Clause.default name).front.toList := by
        unfold Clause.front
        rw [String.toList_append, String.toList_append, List.mem_append, List.mem_append, not_or,
          not_or]
        exact ⟨⟨by decide, hopen⟩, by decide⟩
      have hread := inert_path h.path hfree
      simpa using hread
  | braced names =>
      rw [hclause] at hs
      obtain ⟨hopen, hclose⟩ := hsymbol names (by rw [hclause]; rfl)
      have hfront : '\x7b' ∉ "import ".toList := by decide
      have hread := inert_braces h.path hfront hs hopen hclose
      unfold Clause.front
      simpa using hread
  | defaultAs name =>
      obtain ⟨hopen, hclose⟩ := hsymbol name (by rw [hclause]; rfl)
      have hfree : ∀ c, c ∉ " default as ".toList → c ∉ name.toList → c ≠ ' ' →
          c ∉ " default as ".toList ++ name.toList ++ [' '] := by
        intro c hword hname hspace hm
        rcases List.mem_append.mp hm with hm | hm
        · rcases List.mem_append.mp hm with hm | hm
          · exact hword hm
          · exact hname hm
        · exact hspace (List.mem_singleton.mp hm)
      have hsolid : ¬ Blank (" default as ".toList ++ name.toList ++ [' ']) :=
        fun hb => absurd (hb 'd' (by simp)) (by decide)
      have hfront : '\x7b' ∉ "export ".toList := by decide
      have hread := inert_braces h.path hfront hsolid
        (hfree _ (by decide) hopen (by decide)) (hfree _ (by decide) hclose (by decide))
      unfold Clause.front
      simpa using hread

/-- **A text in which nothing begins stays as it is.** -/
theorem removeEmptyChars_inert {cs : List Char} (h : Inert cs) (r : List Char) :
    removeEmptyChars (cs ++ r) = cs ++ removeEmptyChars r := by
  induction cs with
  | nil => rfl
  | cons c cs ih =>
      have htail : Inert cs := fun front d back heq => h (c :: front) d back (by rw [heq]; rfl)
      rw [List.cons_append, removeEmptyChars]
      cases hm : matchEmptyImport? (c :: (cs ++ r)) with
      | some rest => exact absurd (opens_of_match hm) (h [] c cs rfl r)
      | none => rw [ih htail, List.cons_append]

/-! ## Ends -/

/-- A word is dropped, and a blank before it. -/
theorem dropWord?_append (word : String) {r : List Char}
    (h : (word.toList ++ r).head?.map isBlank = some false) :
    dropWord? word (word.toList ++ r) = some r ∧
      dropWord? word (' ' :: (word.toList ++ r)) = some r := by
  have hsolid : (word.toList ++ r).dropWhile isBlank = word.toList ++ r := by
    cases hw : word.toList ++ r with
    | nil => rfl
    | cons c cs =>
        rw [hw] at h
        exact List.dropWhile_cons_of_neg (by simpa using h)
  unfold dropWord?
  rw [List.dropWhile_cons_of_pos (by decide), hsolid, dropPat?_append]
  exact ⟨rfl, rfl⟩

/-- A quoted text is dropped. -/
theorem dropQuoted?_append {quoted : List Char} (h : Unquoted quoted) (hquote : '\x27' ∉ quoted)
    (rest : List Char) : dropQuoted? ('\x22' :: (quoted ++ '\x22' :: rest)) = some rest := by
  have hfree : ∀ c ∈ quoted, (c ≠ '\x22' && c ≠ '\x27' && c ≠ '\r' && c ≠ '\n') = true := by
    intro c hc
    obtain ⟨h1, h2, h3⟩ := h c hc
    have h4 : c ≠ '\x27' := fun he => hquote (he ▸ hc)
    simp [h1, h2, h3, h4]
  rw [dropQuoted?, if_pos (Or.inl rfl), List.dropWhile_append_of_pos hfree,
    List.dropWhile_cons_of_neg (by decide)]
  rfl

/-- An import of nothing at the front is removed with its line. -/
theorem removeEmptyChars_nothing {package : List Char} (h : Unquoted package)
    (hquote : '\x27' ∉ package) (e : Eol) (rest : List Char) :
    removeEmptyChars ("import \x7b\x7d from \"".toList ++ (package ++ "\";".toList) ++
      (e.sequence.toList ++ rest)) = rest := by
  have hquoted := dropQuoted?_append h hquote (';' :: (e.sequence.toList ++ rest))
  have hend : dropEnd (';' :: (e.sequence.toList ++ rest)) = rest := by
    cases e <;> rfl
  -- the pattern is matched word by word
  have hmatch : matchEmptyImport? ("import".toList ++ (' ' :: ("\x7b".toList ++ ("\x7d".toList ++
      (' ' :: ("from".toList ++ (' ' :: '\x22' :: (package ++ '\x22' ::
        (';' :: (e.sequence.toList ++ rest)))))))))) = some rest := by
    unfold matchEmptyImport?
    simp only [bind, Option.bind, dropPat?_append]
    rw [(dropWord?_append "\x7b" rfl).2]
    simp only
    rw [(dropWord?_append "\x7d" rfl).1]
    simp only
    rw [(dropWord?_append "from" rfl).2]
    simp only
    rw [List.dropWhile_cons_of_pos (by decide), List.dropWhile_cons_of_neg (by decide), hquoted]
    simp only [hend]
    rfl
  have htext : "import \x7b\x7d from \"".toList ++ (package ++ "\";".toList) ++
      (e.sequence.toList ++ rest) = 'i' :: ("mport".toList ++ (' ' :: ("\x7b".toList ++
        ("\x7d".toList ++ (' ' :: ("from".toList ++ (' ' :: '\x22' :: (package ++ '\x22' ::
          (';' :: (e.sequence.toList ++ rest)))))))))) := by simp
  rw [htext, removeEmptyChars]
  have hmatch' := hmatch
  rw [show "import".toList = 'i' :: "mport".toList from rfl, List.cons_append] at hmatch'
  rw [hmatch']

/-- A character at the end of a line that no import holds before its end: nothing but a semicolon is
    consumed there. -/
def IsStop (c : Char) : Prop := c = ')' ∨ c = ';'

theorem IsStop.solid {c : Char} (h : IsStop c) : isBlank c = false := by
  rcases h with rfl | rfl <;> decide

/-- A character is kept where a part without it is dropped. -/
theorem exists_of_append {c : Char} {u z w t : List Char} (h : u ++ c :: z = w ++ t) (hw : c ∉ w) :
    ∃ v, t = v ++ c :: z := by
  rcases List.append_eq_append_iff.mp h with ⟨m, rfl, hm⟩ | ⟨m, rfl, hm⟩
  · cases m with
    | nil => exact ⟨[], hm.symm⟩
    | cons d m =>
        obtain ⟨rfl, -⟩ := List.cons.inj hm
        exact absurd (List.mem_append_right _ List.mem_cons_self) hw
  · exact ⟨m, hm⟩

theorem exists_dropWhile {keep : Char → Bool} {c : Char} (hc : keep c = false) (u z : List Char) :
    ∃ v, (u ++ c :: z).dropWhile keep = v ++ c :: z := by
  refine exists_of_append List.takeWhile_append_dropWhile.symm fun hm => ?_
  have hkeep := List.all_eq_true.mp List.all_takeWhile c hm
  rw [hc] at hkeep
  exact absurd hkeep (by simp)

theorem exists_dropPat? {pat u z r : List Char} {c : Char} (hc : c ∉ pat)
    (h : dropPat? pat (u ++ c :: z) = some r) : ∃ v, r = v ++ c :: z :=
  exists_of_append (dropPat?_eq_some h) hc

theorem exists_dropWord? {word : String} {u z r : List Char} {c : Char} (hc : c ∉ word.toList)
    (hblank : isBlank c = false) (h : dropWord? word (u ++ c :: z) = some r) :
    ∃ v, r = v ++ c :: z := by
  obtain ⟨v, hv⟩ := exists_dropWhile hblank u z
  unfold dropWord? at h
  rw [hv] at h
  exact exists_dropPat? hc h

/-- What may end a quoted text is kept, with all that follows. -/
theorem exists_dropQuoted?_of_mem {q d : Char} {u z r : List Char} (hd : d ∈ u)
    (hstop : d = '\x22' ∨ d = '\x27' ∨ d = '\r' ∨ d = '\n')
    (h : dropQuoted? (q :: (u ++ z)) = some r) : ∃ v, r = v ++ z := by
  obtain ⟨a, b, rfl⟩ := List.append_of_mem hd
  rw [dropQuoted?] at h
  split at h
  · have hkeep : (d ≠ '\x22' && d ≠ '\x27' && d ≠ '\r' && d ≠ '\n') = false := by
      rcases hstop with rfl | rfl | rfl | rfl <;> decide
    obtain ⟨v, hv⟩ := @exists_dropWhile
      (fun c => c ≠ '\x22' && c ≠ '\x27' && c ≠ '\r' && c ≠ '\n') d hkeep a (b ++ z)
    rw [List.append_assoc, List.cons_append, hv] at h
    cases v with
    | nil =>
        rw [List.nil_append] at h
        simp only at h
        split at h
        · exact ⟨b, (Option.some.inj h).symm⟩
        · exact absurd h (by simp)
    | cons y v =>
        rw [List.cons_append] at h
        simp only at h
        split at h
        · exact ⟨v ++ d :: b, by rw [← Option.some.inj h]; simp⟩
        · exact absurd h (by simp)
  · exact absurd h (by simp)

/-- No quoted text goes on behind a line. -/
theorem exists_dropQuoted? {c : Char} (hc : IsStop c) {u z r : List Char} (e : Eol)
    (h : dropQuoted? (u ++ c :: (e.sequence.toList ++ z)) = some r) :
    ∃ v, r = v ++ c :: (e.sequence.toList ++ z) := by
  cases u with
  | nil =>
      rw [List.nil_append, dropQuoted?, if_neg (by rcases hc with rfl | rfl <;> decide)] at h
      exact absurd h (by simp)
  | cons q u =>
      by_cases hall : ∃ d ∈ u, d = '\x22' ∨ d = '\x27' ∨ d = '\r' ∨ d = '\n'
      · obtain ⟨d, hd, hstop⟩ := hall
        exact exists_dropQuoted?_of_mem hd hstop h
      · -- the quote is still open at the end of the line
        exfalso
        have hbreak : ∃ d rest, e.sequence.toList ++ z = d :: rest ∧ (d = '\r' ∨ d = '\n') := by
          cases e with
          | lf => exact ⟨'\n', z, rfl, .inr rfl⟩
          | crlf => exact ⟨'\r', '\n' :: z, rfl, .inl rfl⟩
        obtain ⟨d, rest, hrest, hd⟩ := hbreak
        have hopen : ∀ x ∈ u ++ [c], (x ≠ '\x22' && x ≠ '\x27' && x ≠ '\r' && x ≠ '\n') = true := by
          intro x hx
          rcases List.mem_append.mp hx with hx | hx
          · have hnot : ¬ (x = '\x22' ∨ x = '\x27' ∨ x = '\r' ∨ x = '\n') :=
              fun hstop => hall ⟨x, hx, hstop⟩
            simpa [not_or, and_assoc] using hnot
          · rw [List.mem_singleton.mp hx]
            rcases hc with rfl | rfl <;> decide
        rw [List.cons_append, dropQuoted?] at h
        split at h
        · rename_i hq
          have hne : d ≠ q := by rcases hd with rfl | rfl <;> rcases hq with rfl | rfl <;> decide
          rw [hrest, List.append_cons, List.dropWhile_append_of_pos hopen,
            List.dropWhile_cons_of_neg (by rcases hd with rfl | rfl <;> decide)] at h
          simp only [if_neg hne] at h
          exact absurd h (by simp)
        · exact absurd h (by simp)

/-- What is dropped after an import are the characters of a break. -/
theorem exists_break (cs : List Char) :
    ∃ w, cs = w ++ dropBreak cs ∧ ∀ d ∈ w, d = '\r' ∨ d = '\n' := by
  fun_cases dropBreak cs with
  | case1 r => exact ⟨['\r', '\n'], rfl, by simp⟩
  | case2 r => exact ⟨['\n'], rfl, by simp⟩
  | case3 r _ => exact ⟨['\r'], rfl, by simp⟩
  | case4 => exact ⟨[], rfl, by simp⟩

theorem exists_dropBreak {c : Char} (hc : isBlank c = false) (u z : List Char) :
    ∃ v, dropBreak (u ++ c :: z) = v ++ c :: z := by
  obtain ⟨w, hw, hbreaks⟩ := exists_break (u ++ c :: z)
  refine exists_of_append hw fun hm => ?_
  rcases hbreaks c hm with rfl | rfl <;> exact absurd hc (by decide)

/-- What is no blank is kept behind the semicolon of an import. -/
theorem exists_dropEnd {c : Char} (hc : isBlank c = false) {u z v : List Char} {d : Char}
    (h : (u ++ c :: z).dropWhile isBlank = d :: (v ++ c :: z)) :
    ∃ w, dropEnd (u ++ c :: z) = w ++ c :: z := by
  unfold dropEnd
  rw [h]
  by_cases hd : d = ';'
  · subst hd
    have hspace : (decide (c = ' ') || decide (c = '\t')) = false := by
      rw [Bool.or_eq_false_iff, decide_eq_false_iff_not, decide_eq_false_iff_not]
      constructor <;> rintro rfl <;> exact absurd hc (by decide)
    obtain ⟨w, hw⟩ := @exists_dropWhile (fun c => c = ' ' || c = '\t') c hspace v z
    simp only [hw]
    exact exists_dropBreak hc w z
  · refine ⟨d :: v, ?_⟩
    split
    · rename_i heq
      exact absurd (List.cons.inj heq).1 hd
    · rfl

/-- The end of an import is that of a line, or lies before it. -/
theorem dropEnd_stop {c : Char} (hc : IsStop c) (u z : List Char) (e : Eol) :
    (∃ v, dropEnd (u ++ c :: (e.sequence.toList ++ z)) = v ++ c :: (e.sequence.toList ++ z)) ∨
      c = ';' ∧ dropEnd (u ++ c :: (e.sequence.toList ++ z)) = z := by
  obtain ⟨v, hv⟩ := exists_dropWhile hc.solid u (e.sequence.toList ++ z)
  cases v with
  | nil =>
      unfold dropEnd
      rw [hv]
      rcases hc with rfl | rfl
      · exact .inl ⟨[], rfl⟩
      · refine .inr ⟨rfl, ?_⟩
        cases e <;> rfl
  | cons d v => exact .inl (exists_dropEnd hc.solid hv)

/-- **What begins in a line ends in it.** -/
theorem match_stop {c : Char} (hc : IsStop c) {u z r : List Char} (e : Eol)
    (h : matchEmptyImport? (u ++ c :: (e.sequence.toList ++ z)) = some r) :
    (∃ v, r = v ++ c :: (e.sequence.toList ++ z)) ∨ c = ';' ∧ r = z := by
  have hnot : ∀ word : String, ')' ∉ word.toList ∧ ';' ∉ word.toList → c ∉ word.toList := by
    intro word hword hm
    rcases hc with rfl | rfl
    · exact hword.1 hm
    · exact hword.2 hm
  unfold matchEmptyImport? at h
  simp only [bind, Option.bind_eq_some_iff] at h
  -- `c` is in none of the words, so it is still there after each of them
  obtain ⟨r₁, h₁, r₂, h₂, r₃, h₃, r₄, h₄, r₅, h₅, hr⟩ := h
  obtain ⟨v₁, rfl⟩ := exists_dropPat? (hnot "import" (by decide)) h₁
  obtain ⟨v₂, rfl⟩ := exists_dropWord? (hnot "\x7b" (by decide)) hc.solid h₂
  obtain ⟨v₃, rfl⟩ := exists_dropWord? (hnot "\x7d" (by decide)) hc.solid h₃
  obtain ⟨v₄, rfl⟩ := exists_dropWord? (hnot "from" (by decide)) hc.solid h₄
  obtain ⟨v, hv⟩ := exists_dropWhile hc.solid v₄ (e.sequence.toList ++ z)
  rw [hv] at h₅
  obtain ⟨v₅, rfl⟩ := exists_dropQuoted? hc e h₅
  rw [← Option.some.inj hr]
  exact dropEnd_stop hc v₅ z e

/-- **Removing an import of nothing leaves what follows a line**, or looks for one there. -/
theorem removeEmptyChars_stop {c : Char} (hc : IsStop c) (u z : List Char) (e : Eol) :
    ∃ v, removeEmptyChars (u ++ c :: (e.sequence.toList ++ z)) = v ++ c :: (e.sequence.toList ++ z) ∨
      removeEmptyChars (u ++ c :: (e.sequence.toList ++ z)) =
        v ++ c :: (e.sequence.toList ++ removeEmptyChars z) ∨
      c = ';' ∧ removeEmptyChars (u ++ c :: (e.sequence.toList ++ z)) = v ++ z := by
  induction u with
  | nil =>
      have hinert : Inert (c :: e.sequence.toList) := by
        refine inert_of_not_mem fun hm => ?_
        rcases hc with rfl | rfl <;> cases e <;> exact absurd hm (by decide)
      refine ⟨[], .inr (.inl ?_)⟩
      rw [List.nil_append, ← List.cons_append, removeEmptyChars_inert hinert]
      rfl
  | cons d u ih =>
      rw [List.cons_append, removeEmptyChars]
      cases hm : matchEmptyImport? (d :: (u ++ c :: (e.sequence.toList ++ z))) with
      | some r =>
          rw [← List.cons_append] at hm
          rcases match_stop hc e hm with ⟨v, hv⟩ | ⟨hsemicolon, hz⟩
          · exact ⟨v, .inl hv⟩
          · exact ⟨[], .inr (.inr ⟨hsemicolon, hz⟩)⟩
      | none =>
          obtain ⟨v, hv⟩ := ih
          refine ⟨d :: v, ?_⟩
          rcases hv with hv | hv | ⟨hsemicolon, hv⟩
          · exact .inl (by rw [hv, List.cons_append])
          · exact .inr (.inl (by rw [hv, List.cons_append]))
          · exact .inr (.inr ⟨hsemicolon, by rw [hv, List.cons_append]⟩)

end Scaffold.Source
