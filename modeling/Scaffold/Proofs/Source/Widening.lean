import Scaffold.Proofs.Source.Finished
import Scaffold.Proofs.Text.Widening

/-!
# `Scaffold.Proofs.Source.Widening` — what is made of a text with longer line breaks

Pruning the imports of a text and removing one of nothing look at breaks only as blanks, or take one
away as a whole. So it does not matter whether a text is widened before or after
(`pruneChars_widen`, `removeEmptyChars_widen`), as long as no carriage return stands in it.

## Contents
- **Pruning.** `splitGroup?_widen`, `isUsed_widen`, `pruneChars_widen`, `not_mem_pruneChars`.
- **Matching.** `Widens`, `Widens.bind`, `widens_match`.
- **Removing.** `removeEmptyChars_widen`, `not_mem_removeEmptyChars`.
- **Texts.** `widened`, `prune_widened`, `removeEmptyImport_widened`, `widened_joinLines`.
-/

namespace Scaffold.Source

open Text (OneLine breakOn dropPat? dropWhile_widen isBlank occursIn widen)

/-! ## Pruning -/

theorem breakOn_eq_some {c : Char} {cs a b : List Char} (h : breakOn c cs = some (a, b)) :
    cs = a ++ c :: b := by
  induction cs generalizing a with
  | nil => exact nomatch h
  | cons d cs ih =>
      rw [breakOn] at h
      split at h
      · rename_i hd
        cases h
        rw [hd, List.nil_append]
      · obtain ⟨⟨a', b'⟩, hbreak, heq⟩ := Option.map_eq_some_iff.mp h
        cases heq
        rw [ih hbreak, List.cons_append]

/-- The group of a text and what stands around it are parts of the text. -/
theorem splitGroup?_eq_some {cs head group rest : List Char}
    (h : splitGroup? cs = some (head, group, rest)) : cs = head ++ (group ++ rest) := by
  unfold splitGroup? at h
  split at h
  · exact nomatch h
  · rename_i before r hopen
    obtain ⟨⟨g, after⟩, hclose, heq⟩ := Option.map_eq_some_iff.mp h
    cases heq
    rw [breakOn_eq_some hopen, breakOn_eq_some hclose]
    simp

theorem splitGroup?_widen (cs : List Char) : splitGroup? (widen cs) =
    (splitGroup? cs).map fun (head, group, rest) => (widen head, widen group, widen rest) := by
  unfold splitGroup?
  rw [Text.breakOn_widen (by decide) (by decide)]
  cases breakOn '\x7b' cs with
  | none => rfl
  | some r =>
      obtain ⟨before, r⟩ := r
      simp only [Option.map_some]
      rw [Text.breakOn_widen (by decide) (by decide)]
      cases breakOn '\x7d' r with
      | none => rfl
      | some s =>
          obtain ⟨group, after⟩ := s
          simp only [Option.map_some, Text.widen_append]
          rfl

theorem joinNames_widen (ns : List (List Char)) :
    joinNames (ns.map widen) = widen (joinNames ns) := by
  fun_induction joinNames ns with
  | case1 => rfl
  | case2 n => rfl
  | case3 n m r ih =>
      rw [List.map_cons, List.map_cons, joinNames, ← List.map_cons, ih, Text.widen_append,
        Text.widen_cons (by decide)]

theorem groupNames_widen (group : List Char) :
    groupNames (widen group) = (groupNames group).map widen := by
  unfold groupNames
  rw [Text.splitOn_widen (by decide) (by decide), List.map_map, List.map_map]
  exact List.map_congr_left fun n _ => Text.trim_widen n

theorem mem_of_mem_groupNames {group n : List Char} (hn : n ∈ groupNames group) {c : Char}
    (hc : c ∈ n) : c ∈ group := by
  obtain ⟨w, hw, rfl⟩ := List.mem_map.mp hn
  exact Text.mem_of_mem_splitOn hw c (mem_trim hc)

/-- **A name is used in the widened rest exactly if it is in the rest.** -/
theorem isUsed_widen {base rest name : List Char} (hbase : OneLine base) (hrest : '\r' ∉ rest)
    (hname : '\r' ∉ name) : isUsed base (widen rest) (widen name) = isUsed base rest name := by
  have hreturn : '\r' ∉ base := fun hm => (hbase _ hm).2 rfl
  have hempty : (widen name).isEmpty = name.isEmpty := by
    cases name with
    | nil => rfl
    | cons c name =>
        by_cases hn : c = '\n'
        · subst hn
          rfl
        · rw [Text.widen_cons hn]
          rfl
  have hcall : '@' :: widen name ++ ['('] = widen ('@' :: name ++ ['(']) := by
    rw [Text.widen_append, Text.widen_cons (by decide)]
    rfl
  have hmarks : '\r' ∉ '@' :: name ++ ['('] := by
    intro hm
    rcases List.mem_append.mp hm with hm | hm
    · rcases List.mem_cons.mp hm with hm | hm
      · exact absurd hm (by decide)
      · exact hname hm
    · exact absurd (List.mem_singleton.mp hm) (by decide)
  have hsame : widen name = base ↔ name = base := by
    constructor
    · intro h
      exact Text.widen_injective hname hreturn (h.trans (Text.widen_oneLine hbase).symm)
    · rintro rfl
      exact Text.widen_oneLine hbase
  unfold isUsed
  rw [hempty, hcall, Text.occursIn_widen hmarks hrest, Text.occursIn_widen hname hrest,
    decide_eq_decide.mpr hsame]

/-- **Pruning and widening can be done in either order.** -/
theorem pruneChars_widen {base cs : List Char} (hbase : OneLine base) (h : '\r' ∉ cs) :
    pruneChars base (widen cs) = widen (pruneChars base cs) := by
  unfold pruneChars
  rw [splitGroup?_widen]
  cases hsplit : splitGroup? cs with
  | none => rfl
  | some s =>
      obtain ⟨head, group, rest⟩ := s
      have hcs := splitGroup?_eq_some hsplit
      have hgroup : '\r' ∉ group := fun hm => h (by simp [hcs, hm])
      have hrest : '\r' ∉ rest := fun hm => h (by simp [hcs, hm])
      have hnames : ((groupNames group).map widen).filter (isUsed base (widen rest)) =
          ((groupNames group).filter (isUsed base rest)).map widen := by
        rw [List.filter_map]
        refine congrArg (List.map widen) (List.filter_congr fun n hn => ?_)
        exact isUsed_widen hbase hrest fun hm => hgroup (mem_of_mem_groupNames hn hm)
      simp only [Option.map_some, Text.widen_append]
      rw [groupNames_widen, hnames, joinNames_widen]

theorem not_mem_pruneChars {base cs : List Char} (h : '\r' ∉ cs) : '\r' ∉ pruneChars base cs := by
  unfold pruneChars
  split
  · exact h
  · rename_i head group rest hsplit
    have hcs := splitGroup?_eq_some hsplit
    intro hm
    rcases List.mem_append.mp hm with hm | hm
    · rcases List.mem_append.mp hm with hm | hm
      · exact h (by simp [hcs, hm])
      · rcases mem_of_mem_kept hm with hm | hm
        · exact absurd hm (by decide)
        · exact h (by simp [hcs, hm])
    · exact h (by simp [hcs, hm])

/-! ## Matching -/

/-- What a step of a match leaves of a widened text is what it leaves of the text, widened. -/
structure Widens (f : List Char → Option (List Char)) : Prop where
  step : ∀ {cs}, '\r' ∉ cs → f (widen cs) = (f cs).map widen
  rest : ∀ {cs r}, '\r' ∉ cs → f cs = some r → '\r' ∉ r

theorem Widens.bind {f g : List Char → Option (List Char)} (hf : Widens f) (hg : Widens g) :
    Widens fun cs => (f cs).bind g where
  step h := by
    rw [hf.step h]
    cases hr : f _ with
    | none => rfl
    | some r => exact hg.step (hf.rest h hr)
  rest h hr := by
    obtain ⟨s, hs, hr⟩ := Option.bind_eq_some_iff.mp hr
    exact hg.rest (hf.rest h hs) hr

theorem widens_dropPat {pat : List Char} (hpat : OneLine pat) : Widens (dropPat? pat) where
  step h := Text.dropPat?_oneLine hpat h
  rest h hr hm := h (dropPat?_eq_some hr ▸ List.mem_append_right _ hm)

theorem widens_dropWhile {p : Char → Bool} (hp : p '\r' = p '\n') :
    Widens fun cs => some (cs.dropWhile p) where
  step _ := congrArg some (dropWhile_widen hp _)
  rest h hr hm := h ((List.dropWhile_sublist p).subset (Option.some.inj hr ▸ hm))

theorem widens_dropWord {word : String} (hword : OneLine word.toList) : Widens (dropWord? word) :=
  (widens_dropWhile (p := isBlank) rfl).bind (widens_dropPat hword)

theorem widens_dropQuoted : Widens dropQuoted? where
  step {cs} h := by
    cases cs with
    | nil => rfl
    | cons q r =>
        by_cases hn : q = '\n'
        · subst hn
          rfl
        · rw [Text.widen_cons hn, dropQuoted?, dropQuoted?, dropWhile_widen (by decide)]
          split
          · rename_i hq
            cases r.dropWhile fun c => c ≠ '\x22' && c ≠ '\x27' && c ≠ '\r' && c ≠ '\n' with
            | nil => rfl
            | cons c r =>
                by_cases hc : c = '\n'
                · subst hc
                  -- a break is no quote, whichever character it begins with
                  have hfeed : '\n' ≠ q := by rcases hq with rfl | rfl <;> decide
                  have hreturn : '\r' ≠ q := by rcases hq with rfl | rfl <;> decide
                  rw [Text.widen_newline]
                  simp only [if_neg hfeed, if_neg hreturn, Option.map_none]
                · rw [Text.widen_cons hc]
                  simp only
                  split <;> rfl
          · rfl
  rest {cs r} h hr hm := by
    unfold dropQuoted? at hr
    split at hr
    · exact absurd hr (by simp)
    · rename_i q s
      split at hr
      · split at hr
        · rename_i c s' hdrop
          split at hr
          · cases hr
            have hmem : '\r' ∈ s := (List.dropWhile_sublist _).subset
              (hdrop ▸ List.mem_cons_of_mem _ hm)
            exact h (List.mem_cons_of_mem _ hmem)
          · exact absurd hr (by simp)
        · exact absurd hr (by simp)
      · exact absurd hr (by simp)

theorem dropBreak_widen {cs : List Char} (h : '\r' ∉ cs) :
    dropBreak (widen cs) = widen (dropBreak cs) := by
  cases cs with
  | nil => rfl
  | cons c cs =>
      have hc : c ≠ '\r' := fun e => h (e ▸ List.mem_cons_self)
      by_cases hn : c = '\n'
      · subst hn
        rfl
      · have hstay : ∀ r : List Char, dropBreak (c :: r) = c :: r := by
          intro r
          unfold dropBreak
          split
          · rename_i heq
            exact absurd (List.cons.inj heq).1 hc
          · rename_i heq
            exact absurd (List.cons.inj heq).1 hn
          · rename_i heq
            exact absurd (List.cons.inj heq).1 hc
          · rfl
        rw [Text.widen_cons hn, hstay, hstay, Text.widen_cons hn]

theorem mem_dropBreak {cs : List Char} {c : Char} (h : c ∈ dropBreak cs) : c ∈ cs := by
  unfold dropBreak at h
  split at h
  · exact List.mem_cons_of_mem _ (List.mem_cons_of_mem _ h)
  · exact List.mem_cons_of_mem _ h
  · exact List.mem_cons_of_mem _ h
  · exact h

theorem dropEnd_semicolon {cs r : List Char} (h : cs.dropWhile isBlank = ';' :: r) :
    dropEnd cs = dropBreak (r.dropWhile fun c => c = ' ' || c = '\t') := by
  unfold dropEnd
  rw [h]
  rfl

theorem dropEnd_stay {cs : List Char} (h : (cs.dropWhile isBlank).head? ≠ some ';') :
    dropEnd cs = cs.dropWhile isBlank := by
  unfold dropEnd
  split
  · rename_i r hdrop
    exact absurd (congrArg List.head? hdrop) h
  · rfl

theorem widens_dropEnd : Widens fun cs => some (dropEnd cs) where
  step {cs} h := by
    have hrest : '\r' ∉ cs.dropWhile isBlank := (widens_dropWhile (p := isBlank) rfl).rest h rfl
    have hblank : (widen cs).dropWhile isBlank = widen (cs.dropWhile isBlank) := dropWhile_widen rfl cs
    refine congrArg some ?_
    by_cases hhead : (cs.dropWhile isBlank).head? = some ';'
    · obtain ⟨s, hs⟩ := List.head?_eq_some_iff.mp hhead
      have hreturn : '\r' ∉ s := fun hm => hrest (hs ▸ List.mem_cons_of_mem _ hm)
      have hwiden : (widen cs).dropWhile isBlank = ';' :: widen s := by
        rw [hblank, hs, Text.widen_cons (by decide)]
      rw [dropEnd_semicolon hwiden, dropEnd_semicolon hs, dropWhile_widen (by decide),
        dropBreak_widen]
      exact fun hm => hreturn ((List.dropWhile_sublist _).subset hm)
    · have hwiden : ((widen cs).dropWhile isBlank).head? ≠ some ';' := by
        rwa [hblank, Ne, Text.head?_widen (by decide) (by decide)]
      rw [dropEnd_stay hwiden, dropEnd_stay hhead, hblank]
  rest {cs r} h hr hm := by
    cases hr
    have hrest : '\r' ∉ cs.dropWhile isBlank := (widens_dropWhile (p := isBlank) rfl).rest h rfl
    unfold dropEnd at hm
    split at hm
    · rename_i r hdrop
      have hmem := (List.dropWhile_sublist _).subset (mem_dropBreak hm)
      exact hrest (hdrop ▸ List.mem_cons_of_mem _ hmem)
    · exact hrest hm

/-- **An import of nothing is matched in the widened text as in the text.** -/
theorem widens_match : Widens matchEmptyImport? :=
  (widens_dropPat (by decide)).bind <| (widens_dropWord (by decide)).bind <|
    (widens_dropWord (by decide)).bind <| (widens_dropWord (by decide)).bind <|
      ((widens_dropWhile (p := isBlank) rfl).bind widens_dropQuoted).bind widens_dropEnd

/-! ## Removing -/

/-- An import begins with no break. -/
theorem match_break {c : Char} (hc : c = '\r' ∨ c = '\n') (cs : List Char) :
    matchEmptyImport? (c :: cs) = none := by
  have hdrop : dropPat? "import".toList (c :: cs) = none := by
    rcases hc with rfl | rfl <;> rfl
  unfold matchEmptyImport?
  rw [hdrop]
  rfl

/-- **Removing an import of nothing and widening can be done in either order.** -/
theorem removeEmptyChars_widen {cs : List Char} (h : '\r' ∉ cs) :
    removeEmptyChars (widen cs) = widen (removeEmptyChars cs) := by
  induction cs with
  | nil => rfl
  | cons c cs ih =>
      have hmatch := widens_match.step h
      have ih := ih fun hm => h (List.mem_cons_of_mem _ hm)
      by_cases hn : c = '\n'
      · subst hn
        rw [Text.widen_newline, removeEmptyChars, match_break (.inl rfl), removeEmptyChars,
          match_break (.inr rfl), removeEmptyChars, match_break (.inr rfl), ih]
        rfl
      · rw [Text.widen_cons hn] at hmatch ⊢
        rw [removeEmptyChars, removeEmptyChars, hmatch]
        cases matchEmptyImport? (c :: cs) with
        | none => simp only [Option.map_none, ih, Text.widen_cons hn]
        | some r => rfl

theorem not_mem_removeEmptyChars {cs : List Char} (h : '\r' ∉ cs) :
    '\r' ∉ removeEmptyChars cs := by
  induction cs with
  | nil => exact h
  | cons c cs ih =>
      rw [removeEmptyChars]
      cases hmatch : matchEmptyImport? (c :: cs) with
      | some r => exact widens_match.rest h hmatch
      | none =>
          intro hm
          rcases List.mem_cons.mp hm with rfl | hm
          · exact h List.mem_cons_self
          · exact ih (fun hr => h (List.mem_cons_of_mem _ hr)) hm

/-! ## Texts -/

/-- The text with longer line breaks. -/
def widened (s : String) : String := String.ofList (widen s.toList)

theorem toList_widened (s : String) : (widened s).toList = widen s.toList := by
  unfold widened
  rw [String.toList_ofList]

theorem prune_widened {base s : String} (hbase : OneLine base.toList) (h : '\r' ∉ s.toList) :
    prune (widened s) base = widened (prune s base) := by
  unfold prune widened
  rw [String.toList_ofList, String.toList_ofList, pruneChars_widen hbase h]

theorem not_mem_prune {s : String} (base : String) (h : '\r' ∉ s.toList) :
    '\r' ∉ (prune s base).toList := by
  unfold prune
  rw [String.toList_ofList]
  exact not_mem_pruneChars h

theorem removeEmptyImport_widened {s : String} (h : '\r' ∉ s.toList) :
    removeEmptyImport (widened s) = widened (removeEmptyImport s) := by
  unfold removeEmptyImport widened
  rw [String.toList_ofList, String.toList_ofList, removeEmptyChars_widen h]

theorem not_mem_removeEmptyImport {s : String} (h : '\r' ∉ s.toList) :
    '\r' ∉ (removeEmptyImport s).toList := by
  unfold removeEmptyImport
  rw [String.toList_ofList]
  exact not_mem_removeEmptyChars h

theorem toList_joinLines (eol : String) (ls : Lines) :
    (joinLines eol ls).toList = ls.flatMap fun l => l.toList ++ eol.toList := by
  induction ls with
  | nil => rfl
  | cons l ls ih => rw [toList_joinLines_cons, ih, List.flatMap_cons, List.append_assoc]

/-- **Lines that end with longer breaks are the widened ones.** -/
theorem widened_joinLines {ls : Lines} (h : ∀ l ∈ ls, OneLine l.toList) :
    widened (joinLines "\n" ls) = joinLines "\r\n" ls := by
  refine String.toList_injective ?_
  rw [toList_widened]
  induction ls with
  | nil => rfl
  | cons l ls ih =>
      rw [toList_joinLines_cons, toList_joinLines_cons, Text.widen_append, Text.widen_append,
        Text.widen_oneLine (h l List.mem_cons_self), ih fun m hm => h m (List.mem_cons_of_mem _ hm)]
      rfl

theorem not_mem_joinLines {ls : Lines} (h : ∀ l ∈ ls, OneLine l.toList) :
    '\r' ∉ (joinLines "\n" ls).toList := by
  rw [toList_joinLines]
  intro hm
  obtain ⟨l, hl, hm⟩ := List.mem_flatMap.mp hm
  rcases List.mem_append.mp hm with hm | hm
  · exact (h l hl _ hm).2 rfl
  · exact absurd hm (by decide)

end Scaffold.Source
