import Scaffold.Proofs.Source.Widening
import Scaffold.Proofs.Text.Lines

/-!
# `Scaffold.Proofs.Source.Pruning` — what pruning leaves of a text

Which names a text keeps is said here without regard to how they are looked for (`Pruned`): the group is
that between the first opening brace and the first closing brace behind it, its names are what stands
between commas without the blanks around it, and those stay of which the rest of the text makes use. For
every text that leaves one result, and it is what `prune` gives (`prune_iff`). The names that stay are
found again where they were joined (`kept_joinNames`), so that pruning once more changes nothing.

## Contents
- **Trimming.** `Trimmed`, `trimmed_iff`, `trim_eq_self`, `trim_trim`.
- **Use.** `occursIn_iff`, `application`, `Used`, `isUsed_iff`.
- **Groups.** `splitOn_eq`, `joinNames_eq`, `groupNames_joinNames`, `kept_joinNames`.
- **Pruning.** `Pruned`, `cases_group`, `pruneChars_iff`, `pruneChars_pruneChars`, `prune_iff`.
-/

namespace Scaffold.Source

open Text (isBlank dropPat? occursIn splitOn startsWith trim)

/-! ## Trimming -/

/-- **A text without the blanks around it.** -/
structure Trimmed (w n : List Char) : Prop where
  blanks : ∃ a b, w = a ++ (n ++ b) ∧ Blank a ∧ Blank b
  front : ∀ c ∈ n.head?, isBlank c = false
  back : ∀ c ∈ n.getLast?, isBlank c = false

/-- What begins with no blank keeps all its characters. -/
theorem dropWhile_of_head? {cs : List Char} (h : ∀ c ∈ cs.head?, isBlank c = false) :
    cs.dropWhile isBlank = cs := by
  cases cs with
  | nil => rfl
  | cons c cs =>
      have hc := h c rfl
      rw [List.dropWhile_cons_of_neg (by simp [hc])]

theorem head?_dropWhile_isBlank (cs : List Char) :
    ∀ c ∈ (cs.dropWhile isBlank).head?, isBlank c = false := by
  intro c hc
  have hhead := List.head?_dropWhile_not isBlank cs
  rw [Option.mem_def.mp hc] at hhead
  exact hhead

theorem trimmed_trim (w : List Char) : Trimmed w (trim w) := by
  obtain ⟨a, ha, hblank⟩ := exists_blank w
  obtain ⟨b, hb, hblank'⟩ := exists_blank (w.dropWhile isBlank).reverse
  have hright : w.dropWhile isBlank = trim w ++ b.reverse := by
    have hreverse := congrArg List.reverse hb
    rwa [List.reverse_reverse, List.reverse_append] at hreverse
  refine ⟨⟨a, b.reverse, ?_, hblank, fun c hc => hblank' c (List.mem_reverse.mp hc)⟩, ?_, ?_⟩
  · rw [← hright]
    exact ha
  · intro c hc
    refine head?_dropWhile_isBlank w c ?_
    rw [Option.mem_def] at hc ⊢
    rw [hright, List.head?_append, hc]
    rfl
  · intro c hc
    rw [Option.mem_def, trim, Text.trimRight, List.getLast?_reverse] at hc
    exact head?_dropWhile_isBlank _ c hc

/-- **Every text has one such part.** -/
theorem trimmed_iff {w n : List Char} : Trimmed w n ↔ trim w = n := by
  refine ⟨fun h => ?_, fun h => h ▸ trimmed_trim w⟩
  obtain ⟨⟨a, b, rfl, ha, hb⟩, hfront, hback⟩ := h
  have hb' : ∀ c ∈ b.reverse, isBlank c = true := fun c hc => hb c (List.mem_reverse.mp hc)
  have hleft : (a ++ (n ++ b)).dropWhile isBlank = (n ++ b).dropWhile isBlank :=
    List.dropWhile_append_of_pos ha
  unfold trim Text.trimLeft Text.trimRight
  rw [hleft]
  cases n with
  | nil =>
      have hnothing : b.dropWhile isBlank = [] := List.dropWhile_eq_nil_iff.mpr hb
      rw [List.nil_append, hnothing]
      rfl
  | cons c n =>
      have hkept : (c :: n ++ b).dropWhile isBlank = c :: n ++ b :=
        dropWhile_of_head? fun d hd => hfront d hd
      have hlast : (c :: n).reverse.dropWhile isBlank = (c :: n).reverse :=
        dropWhile_of_head? fun d hd => hback d (by rwa [List.head?_reverse] at hd)
      rw [hkept, List.reverse_append, List.dropWhile_append_of_pos hb', hlast, List.reverse_reverse]

/-- A text with no blank at its ends is left as it is. -/
theorem trim_eq_self {w : List Char} (hfront : ∀ c ∈ w.head?, isBlank c = false)
    (hback : ∀ c ∈ w.getLast?, isBlank c = false) : trim w = w := by
  refine trimmed_iff.mp ⟨⟨[], [], ?_, ?_, ?_⟩, hfront, hback⟩
  · rw [List.nil_append, List.append_nil]
  · exact fun c hc => absurd hc List.not_mem_nil
  · exact fun c hc => absurd hc List.not_mem_nil

theorem trim_trim (w : List Char) : trim (trim w) = trim w :=
  trim_eq_self (trimmed_trim w).front (trimmed_trim w).back

/-! ## Use -/

theorem startsWith_iff {pat cs : List Char} : startsWith pat cs = true ↔ pat <+: cs := by
  unfold startsWith
  constructor
  · intro h
    obtain ⟨r, hr⟩ := Option.isSome_iff_exists.mp h
    exact ⟨r, (dropPat?_eq_some hr).symm⟩
  · rintro ⟨r, rfl⟩
    rw [dropPat?_append]
    rfl

theorem occursIn_iff {pat cs : List Char} : occursIn pat cs = true ↔ pat <:+: cs := by
  induction cs with
  | nil => rw [occursIn, List.isEmpty_iff, List.infix_nil]
  | cons c cs ih => rw [occursIn, Bool.or_eq_true, startsWith_iff, ih, List.infix_cons_iff]

/-- The front of a decorator that is applied. -/
def application (name : List Char) : List Char := '@' :: name ++ ['(']

/-- **A text makes use of a name**: it applies the decorator of that name, or the name is that of the base
    class and the text mentions it. -/
def Used (base cs name : List Char) : Prop :=
  application name <:+: cs ∨ name = base ∧ name <:+: cs

theorem isUsed_iff {base cs name : List Char} :
    isUsed base cs name = true ↔ name ≠ [] ∧ Used base cs name := by
  unfold isUsed Used application
  rw [Bool.and_eq_true, Bool.or_eq_true, Bool.and_eq_true, occursIn_iff, occursIn_iff,
    decide_eq_true_iff, Bool.not_eq_true', List.isEmpty_eq_false_iff]

instance (base cs name : List Char) : Decidable (name ≠ [] ∧ Used base cs name) :=
  decidable_of_iff _ isUsed_iff

/-! ## Groups -/

theorem splitOn_eq (c : Char) (cs : List Char) : splitOn c cs = cs.splitOn c := by
  have hjoined : [c].intercalate (splitOn c cs) = cs := by
    induction cs with
    | nil => rfl
    | cons d cs ih =>
        rw [splitOn]
        split
        · rename_i hd
          rw [List.intercalate_cons_of_ne_nil (Text.splitOn_ne_nil c cs), ih, hd]
          rfl
        · -- the first piece is longer by a character
          cases hs : splitOn c cs with
          | nil => exact absurd hs (Text.splitOn_ne_nil c cs)
          | cons w ws =>
              rw [hs] at ih
              rw [← ih]
              cases ws with
              | nil => rw [List.intercalate_singleton, List.intercalate_singleton]
              | cons v ws => rw [List.intercalate_cons_cons, List.intercalate_cons_cons]; rfl
  have hfree : ∀ w ∈ splitOn c cs, c ∉ w := fun w hw => Text.not_mem_of_mem_splitOn hw
  have hpieces := List.splitOn_intercalate c hfree (Text.splitOn_ne_nil c cs)
  rw [← hpieces, hjoined]

theorem joinNames_eq (ns : List (List Char)) : joinNames ns = [','].intercalate ns := by
  fun_induction joinNames ns with
  | case1 => rfl
  | case2 n => rw [List.intercalate_singleton]
  | case3 n m r ih => rw [ih, List.intercalate_cons_cons, List.append_assoc]; rfl

/-- **Names are found again where they were joined.** -/
theorem groupNames_joinNames {ns : List (List Char)} (hne : ns ≠ [])
    (h : ∀ n ∈ ns, ',' ∉ n ∧ trim n = n) : groupNames (joinNames ns) = ns := by
  unfold groupNames
  rw [splitOn_eq, joinNames_eq, List.splitOn_intercalate _ (fun n hn => (h n hn).1) hne]
  conv_rhs => rw [← List.map_id ns]
  exact List.map_congr_left fun n hn => (h n hn).2

theorem not_isUsed_nil (base rest : List Char) : isUsed base rest [] = false := rfl

/-- Of joined names those stay that are used. -/
theorem kept_joinNames {ns : List (List Char)} (h : ∀ n ∈ ns, ',' ∉ n ∧ trim n = n)
    (base rest : List Char) : kept base (joinNames ns) rest = ns.filter (isUsed base rest) := by
  unfold kept
  cases ns with
  | nil =>
      -- of no names one is read, and it is empty
      have hnothing : groupNames (joinNames []) = [[]] := rfl
      rw [hnothing, List.filter_cons_of_neg (by simp [not_isUsed_nil])]
  | cons n ns => rw [groupNames_joinNames (List.cons_ne_nil n ns) h]

theorem of_mem_kept {base group rest n : List Char} (h : n ∈ kept base group rest) :
    ',' ∉ n ∧ trim n = n := by
  obtain ⟨w, hw, rfl⟩ := List.mem_map.mp (List.mem_filter.mp h).1
  exact ⟨fun hm => Text.not_mem_of_mem_splitOn hw (mem_trim hm), trim_trim w⟩

theorem kept_kept (base group rest : List Char) :
    kept base (joinNames (kept base group rest)) rest = kept base group rest := by
  rw [kept_joinNames fun n hn => of_mem_kept hn, kept, List.filter_filter]
  simp only [Bool.and_self]

/-! ## Pruning -/

/-- **What pruning leaves of a text.** Without a group that is the whole text. Of a group those names are
    left, in order and as often as they stand there, of which the text from the closing brace on makes use;
    what stands around the names is left as it is. -/
inductive Pruned (base : List Char) : List Char → List Char → Prop
  | whole {cs : List Char} (h : ∀ a b c, cs ≠ a ++ '\x7b' :: (b ++ '\x7d' :: c)) : Pruned base cs cs
  | cut {before group after : List Char} {names : List (List Char)} (hbefore : '\x7b' ∉ before)
      (hgroup : '\x7d' ∉ group) (hnames : List.Forall₂ Trimmed (group.splitOn ',') names) :
      Pruned base (before ++ '\x7b' :: (group ++ '\x7d' :: after))
        (before ++ '\x7b' :: ([','].intercalate
          (names.filter fun n => n ≠ [] ∧ Used base ('\x7d' :: after) n) ++ '\x7d' :: after))

theorem forall₂_trimmed_iff {ws ns : List (List Char)} :
    List.Forall₂ Trimmed ws ns ↔ ws.map trim = ns := by
  constructor
  · intro h
    induction h with
    | nil => rfl
    | cons hw _ ih => rw [List.map_cons, trimmed_iff.mp hw, ih]
  · rintro rfl
    induction ws with
    | nil => exact .nil
    | cons w ws ih => exact .cons (trimmed_trim w) ih

theorem breakOn_eq_none {c : Char} {cs : List Char} (h : Text.breakOn c cs = none) : c ∉ cs := by
  induction cs with
  | nil => exact List.not_mem_nil
  | cons d cs ih =>
      rw [Text.breakOn] at h
      split at h
      · cases h
      · rename_i hd
        rw [List.mem_cons, not_or]
        exact ⟨Ne.symm hd, ih (Option.map_eq_none_iff.mp h)⟩

/-- The part before the first occurrence holds none. -/
theorem not_mem_of_breakOn {c : Char} {cs a b : List Char} (h : Text.breakOn c cs = some (a, b)) :
    c ∉ a := by
  induction cs generalizing a with
  | nil => exact nomatch h
  | cons d cs ih =>
      rw [Text.breakOn] at h
      split at h
      · cases h
        exact List.not_mem_nil
      · rename_i hd
        obtain ⟨⟨a', b'⟩, hbreak, heq⟩ := Option.map_eq_some_iff.mp h
        cases heq
        rw [List.mem_cons, not_or]
        exact ⟨Ne.symm hd, ih hbreak⟩

/-- Every text has a first group, or none at all. -/
theorem cases_group (cs : List Char) :
    (∀ a b c, cs ≠ a ++ '\x7b' :: (b ++ '\x7d' :: c)) ∧ splitGroup? cs = none ∨
      ∃ before group after, '\x7b' ∉ before ∧ '\x7d' ∉ group ∧
        cs = before ++ '\x7b' :: (group ++ '\x7d' :: after) := by
  unfold splitGroup?
  cases hopen : Text.breakOn '\x7b' cs with
  | none =>
      refine .inl ⟨fun a b c h => breakOn_eq_none hopen ?_, rfl⟩
      simp [h]
  | some s =>
      obtain ⟨before, r⟩ := s
      have hbefore := not_mem_of_breakOn hopen
      have hcs := breakOn_eq_some hopen
      cases hclose : Text.breakOn '\x7d' r with
      | none =>
          refine .inl ⟨fun a b c h => breakOn_eq_none hclose ?_, by simp [hclose]⟩
          -- whichever opening brace that is, the closing one stands behind the first of them
          obtain ⟨v, hv⟩ := exists_of_append (h.symm.trans hcs) hbefore
          have hmem : '\x7d' ∈ b ++ '\x7d' :: c := List.mem_append_right b List.mem_cons_self
          cases v with
          | nil => exact (List.cons.inj hv).2 ▸ hmem
          | cons d v =>
              rw [(List.cons.inj hv).2]
              exact List.mem_append_right v (List.mem_cons_of_mem _ hmem)
      | some s =>
          obtain ⟨group, after⟩ := s
          refine .inr ⟨before, group, after, hbefore, not_mem_of_breakOn hclose, ?_⟩
          rw [hcs, breakOn_eq_some hclose]

variable {base cs r : List Char}

theorem pruneChars_whole (h : ∀ a b c, cs ≠ a ++ '\x7b' :: (b ++ '\x7d' :: c)) :
    pruneChars base cs = cs := by
  rcases cases_group cs with ⟨-, hnone⟩ | ⟨before, group, after, -, -, hcs⟩
  · rw [pruneChars, hnone]
  · exact absurd hcs (h before group after)

theorem pruneChars_cut {before group after : List Char} {names : List (List Char)}
    (hbefore : '\x7b' ∉ before) (hgroup : '\x7d' ∉ group)
    (hnames : List.Forall₂ Trimmed (group.splitOn ',') names) :
    pruneChars base (before ++ '\x7b' :: (group ++ '\x7d' :: after)) =
      before ++ '\x7b' :: ([','].intercalate
        (names.filter fun n => n ≠ [] ∧ Used base ('\x7d' :: after) n) ++ '\x7d' :: after) := by
  have hkept : kept base group ('\x7d' :: after) =
      names.filter fun n => n ≠ [] ∧ Used base ('\x7d' :: after) n := by
    rw [kept, groupNames, splitOn_eq, forall₂_trimmed_iff.mp hnames]
    refine List.filter_congr fun n _ => ?_
    rw [Bool.eq_iff_iff, isUsed_iff, decide_eq_true_iff]
  rw [pruneChars_group base hbefore hgroup, hkept, joinNames_eq]

/-- **Pruning leaves what was said of it.** -/
theorem pruneChars_iff : pruneChars base cs = r ↔ Pruned base cs r := by
  constructor
  · rintro rfl
    rcases cases_group cs with ⟨hwhole, -⟩ | ⟨before, group, after, hbefore, hgroup, rfl⟩
    · rw [pruneChars_whole hwhole]
      exact .whole hwhole
    · have hnames : List.Forall₂ Trimmed (group.splitOn ',') ((group.splitOn ',').map trim) :=
        forall₂_trimmed_iff.mpr rfl
      rw [pruneChars_cut hbefore hgroup hnames]
      exact .cut hbefore hgroup hnames
  · rintro (hwhole | ⟨hbefore, hgroup, hnames⟩)
    · exact pruneChars_whole hwhole
    · exact pruneChars_cut hbefore hgroup hnames

/-- **Pruning once more changes nothing**, for no name that was kept holds a brace that would end the group,
    and the text behind the group is the same. -/
theorem pruneChars_pruneChars (base cs : List Char) :
    pruneChars base (pruneChars base cs) = pruneChars base cs := by
  rcases cases_group cs with ⟨hwhole, -⟩ | ⟨before, group, after, hbefore, hgroup, rfl⟩
  · rw [pruneChars_whole hwhole, pruneChars_whole hwhole]
  · have hleft : '\x7d' ∉ joinNames (kept base group ('\x7d' :: after)) := by
      intro hm
      rcases mem_of_mem_kept hm with hm | hm
      · exact absurd hm (by decide)
      · exact hgroup hm
    rw [pruneChars_group base hbefore hgroup, pruneChars_group base hbefore hleft, kept_kept]

/-- **What pruning does to every text**, whatever the base class is called. -/
theorem prune_iff (text base result : String) :
    (prune text base = result ↔ Pruned base.toList text.toList result.toList) ∧
      prune (prune text base) base = prune text base := by
  constructor
  · rw [← pruneChars_iff, ← String.toList_inj, prune, String.toList_ofList]
  · unfold prune
    rw [String.toList_ofList, pruneChars_pruneChars]

end Scaffold.Source
