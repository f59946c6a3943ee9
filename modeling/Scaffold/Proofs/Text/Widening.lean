import Mathlib.Data.List.Induction
import Scaffold.Proofs.Text.Break

/-!
# `Scaffold.Proofs.Text.Widening` — the same text with longer line breaks

A text without carriage returns is widened by putting one before every line feed. A widened text is
cut, trimmed and searched as the text itself is (`breakOn_widen`, `splitOn_widen`, `trim_widen`,
`occursIn_widen`), so that what is made of a text by these is widened with it.

## Contents
- **Widening.** `widen`, `widen_append`, `widen_oneLine`, `widen_injective`.
- **Breaks.** `Ended`, `ended_widen`.
- **Trimming.** `dropWhile_widen`, `trim_widen`.
- **Searching.** `dropPat?_widen`, `occursIn_widen`.
- **Cutting.** `breakOn_widen`, `splitOn_widen`.
-/

namespace Scaffold.Text

/-! ## Widening -/

/-- A character with the carriage return that a line feed is given. -/
def widenChar (c : Char) : List Char := if c = '\n' then ['\r', '\n'] else [c]

/-- The text with a carriage return before every line feed. -/
def widen (cs : List Char) : List Char := cs.flatMap widenChar

theorem widen_append (a b : List Char) : widen (a ++ b) = widen a ++ widen b := List.flatMap_append

theorem widen_newline (cs : List Char) : widen ('\n' :: cs) = '\r' :: '\n' :: widen cs := rfl

theorem widen_cons {c : Char} (h : c ≠ '\n') (cs : List Char) : widen (c :: cs) = c :: widen cs := by
  rw [widen, List.flatMap_cons, widenChar, if_neg h]
  rfl

theorem widen_oneLine {cs : List Char} (h : OneLine cs) : widen cs = cs := by
  induction cs with
  | nil => rfl
  | cons c cs ih =>
      rw [widen_cons (h c List.mem_cons_self).1, ih fun d hd => h d (List.mem_cons_of_mem _ hd)]

/-- What was widened is found again by leaving the carriage returns out. -/
theorem filter_widen {cs : List Char} (h : '\r' ∉ cs) : (widen cs).filter (· ≠ '\r') = cs := by
  induction cs with
  | nil => rfl
  | cons c cs ih =>
      have hc : c ≠ '\r' := fun e => h (e ▸ List.mem_cons_self)
      have hcs := ih fun hm => h (List.mem_cons_of_mem _ hm)
      by_cases hn : c = '\n'
      · subst hn
        rw [widen_newline, List.filter_cons_of_neg (by decide), List.filter_cons_of_pos (by decide), hcs]
      · rw [widen_cons hn, List.filter_cons_of_pos (by simpa using hc), hcs]

theorem widen_injective {a b : List Char} (ha : '\r' ∉ a) (hb : '\r' ∉ b)
    (h : widen a = widen b) : a = b := by
  rw [← filter_widen ha, ← filter_widen hb, h]

theorem head?_widen {c : Char} (hn : c ≠ '\n') (hr : c ≠ '\r') (cs : List Char) :
    (widen cs).head? = some c ↔ cs.head? = some c := by
  cases cs with
  | nil => exact Iff.rfl
  | cons d cs =>
      by_cases hd : d = '\n'
      · subst hd
        simp [widen_newline, Ne.symm hn, Ne.symm hr]
      · rw [widen_cons hd]
        rfl

/-! ## Breaks -/

/-- **Every line break of a text is a given one**: no carriage return stands in it, or each stands right
    before a line feed, and no line feed without one. -/
def Ended : Eol → List Char → Prop
  | .lf, cs => '\r' ∉ cs
  | .crlf, cs => ∀ a c b, cs = a ++ c :: b →
      (c = '\n' → a.getLast? = some '\r') ∧ (c = '\r' → b.head? = some '\n')

/-- A widened text has no other breaks than those it was given. -/
theorem ended_widen {cs : List Char} (h : '\r' ∉ cs) : Ended .crlf (widen cs) := by
  induction cs with
  | nil =>
      intro a c b hcut
      have hnil := congrArg List.length hcut
      rw [List.length_append] at hnil
      exact absurd hnil (Nat.ne_of_lt (Nat.lt_add_left _ (Nat.succ_pos _)))
  | cons d cs ih =>
      have hd : d ≠ '\r' := fun e => h (e ▸ List.mem_cons_self)
      have hcs := ih fun hm => h (List.mem_cons_of_mem _ hm)
      intro a c b hcut
      by_cases hn : d = '\n'
      · subst hn
        rw [widen_newline] at hcut
        rcases a with _ | ⟨x, _ | ⟨y, a⟩⟩
        · simp only [List.nil_append, List.cons.injEq] at hcut
          obtain ⟨rfl, rfl⟩ := hcut
          exact ⟨fun hc => absurd hc (by decide), fun _ => rfl⟩
        · simp only [List.cons_append, List.nil_append, List.cons.injEq] at hcut
          obtain ⟨rfl, rfl, -⟩ := hcut
          exact ⟨fun _ => rfl, fun hc => absurd hc (by decide)⟩
        · simp only [List.cons_append, List.cons.injEq] at hcut
          obtain ⟨rfl, rfl, hcut⟩ := hcut
          obtain ⟨hfeed, hreturn⟩ := hcs a c b hcut
          exact ⟨fun hc => by rw [List.getLast?_cons, List.getLast?_cons, hfeed hc]; rfl, hreturn⟩
      · rw [widen_cons hn] at hcut
        cases a with
        | nil =>
            simp only [List.nil_append, List.cons.injEq] at hcut
            obtain ⟨rfl, -⟩ := hcut
            exact ⟨fun hc => absurd hc hn, fun hc => absurd hc hd⟩
        | cons x a =>
            simp only [List.cons_append, List.cons.injEq] at hcut
            obtain ⟨-, hcut⟩ := hcut
            obtain ⟨hfeed, hreturn⟩ := hcs a c b hcut
            exact ⟨fun hc => by rw [List.getLast?_cons, hfeed hc]; rfl, hreturn⟩

/-! ## Trimming -/

/-- What is dropped or kept at the front is dropped or kept with its carriage returns. -/
theorem dropWhile_widen {p : Char → Bool} (hp : p '\r' = p '\n') (cs : List Char) :
    (widen cs).dropWhile p = widen (cs.dropWhile p) := by
  induction cs with
  | nil => rfl
  | cons c cs ih =>
      by_cases hn : c = '\n'
      · subst hn
        rw [widen_newline, List.dropWhile_cons, List.dropWhile_cons, List.dropWhile_cons, hp]
        split
        · exact ih
        · rfl
      · rw [widen_cons hn, List.dropWhile_cons, List.dropWhile_cons]
        split
        · exact ih
        · exact (widen_cons hn cs).symm

theorem trimRight_widen (cs : List Char) : trimRight (widen cs) = widen (trimRight cs) := by
  have hlast : ∀ (a : List Char) (c : Char),
      trimRight (a ++ [c]) = if isBlank c then trimRight a else a ++ [c] := by
    intro a c
    unfold trimRight
    rw [List.reverse_append, List.reverse_singleton, List.singleton_append, List.dropWhile_cons]
    split
    · rfl
    · rw [List.reverse_cons, List.reverse_reverse]
  -- from the end on, since that is where blanks are dropped
  induction cs using List.reverseRecOn with
  | nil => rfl
  | append_singleton a c ih =>
      rw [widen_append, hlast]
      by_cases hn : c = '\n'
      · subst hn
        have hcut : widen a ++ widen ['\n'] = (widen a ++ ['\r']) ++ ['\n'] := by
          rw [List.append_assoc]
          rfl
        have hfeed : isBlank '\n' = true := rfl
        have hreturn : isBlank '\r' = true := rfl
        rw [hcut, hlast, if_pos hfeed, hlast, if_pos hreturn, if_pos hfeed, ih]
      · have hone : widen [c] = [c] := widen_cons hn []
        rw [hone, hlast, ih]
        split
        · rfl
        · rw [widen_append, hone]

theorem trim_widen (cs : List Char) : trim (widen cs) = widen (trim cs) := by
  unfold trim trimLeft
  rw [dropWhile_widen rfl, trimRight_widen]

/-! ## Searching -/

theorem dropPat?_widen {pat cs : List Char} (hpat : '\r' ∉ pat) (hcs : '\r' ∉ cs) :
    dropPat? (widen pat) (widen cs) = (dropPat? pat cs).map widen := by
  induction pat generalizing cs with
  | nil => cases cs <;> rfl
  | cons p pat ih =>
      have hp : p ≠ '\r' := fun e => hpat (e ▸ List.mem_cons_self)
      have hrest : '\r' ∉ pat := fun hm => hpat (List.mem_cons_of_mem _ hm)
      cases cs with
      | nil =>
          by_cases hn : p = '\n'
          · subst hn
            rfl
          · rw [widen_cons hn]
            rfl
      | cons c cs =>
          have hc : c ≠ '\r' := fun e => hcs (e ▸ List.mem_cons_self)
          have htail : '\r' ∉ cs := fun hm => hcs (List.mem_cons_of_mem _ hm)
          have ih := ih hrest htail
          by_cases hpn : p = '\n'
          · subst hpn
            by_cases hcn : c = '\n'
            · subst hcn
              rw [widen_newline, widen_newline, dropPat?, if_pos rfl, dropPat?, if_pos rfl, ih,
                dropPat?, if_pos rfl]
            · rw [widen_newline, widen_cons hcn, dropPat?, if_neg (Ne.symm hc), dropPat?,
                if_neg (Ne.symm hcn)]
              rfl
          · by_cases hcn : c = '\n'
            · subst hcn
              rw [widen_newline, widen_cons hpn, dropPat?, if_neg hp, dropPat?, if_neg hpn]
              rfl
            · rw [widen_cons hpn, widen_cons hcn, dropPat?, dropPat?]
              split
              · exact ih
              · rfl

/-- A pattern on one line is not changed by widening. -/
theorem dropPat?_oneLine {pat cs : List Char} (hpat : OneLine pat) (hcs : '\r' ∉ cs) :
    dropPat? pat (widen cs) = (dropPat? pat cs).map widen := by
  have hreturn : '\r' ∉ pat := fun hm => (hpat _ hm).2 rfl
  have h := dropPat?_widen hreturn hcs
  rwa [widen_oneLine hpat] at h

theorem startsWith_widen {pat cs : List Char} (hpat : '\r' ∉ pat) (hcs : '\r' ∉ cs) :
    startsWith (widen pat) (widen cs) = startsWith pat cs := by
  unfold startsWith
  rw [dropPat?_widen hpat hcs]
  cases dropPat? pat cs <;> rfl

/-- **A pattern stands in a text exactly if it does so in the widened one.** -/
theorem occursIn_widen {pat cs : List Char} (hpat : '\r' ∉ pat) (hcs : '\r' ∉ cs) :
    occursIn (widen pat) (widen cs) = occursIn pat cs := by
  induction cs with
  | nil =>
      cases pat with
      | nil => rfl
      | cons p pat =>
          by_cases hn : p = '\n'
          · subst hn
            rfl
          · rw [widen_cons hn]
            rfl
  | cons c cs ih =>
      have hstart := startsWith_widen hpat hcs
      have ih := ih fun hm => hcs (List.mem_cons_of_mem _ hm)
      by_cases hn : c = '\n'
      · subst hn
        rw [widen_newline] at hstart ⊢
        rw [occursIn, occursIn, occursIn, hstart, ih]
        -- between the two characters of a break only the empty pattern begins
        cases pat with
        | nil => rfl
        | cons p pat =>
            have hbetween : startsWith (widen (p :: pat)) ('\n' :: widen cs) = false := by
              by_cases hp : p = '\n'
              · subst hp
                rfl
              · rw [widen_cons hp, startsWith, dropPat?, if_neg hp]
                rfl
            rw [hbetween, Bool.false_or]
      · rw [widen_cons hn] at hstart ⊢
        rw [occursIn, occursIn, hstart, ih]

/-! ## Cutting -/

variable {c : Char}

theorem breakOn_widen (hn : c ≠ '\n') (hr : c ≠ '\r') (cs : List Char) :
    breakOn c (widen cs) = (breakOn c cs).map fun (a, b) => (widen a, widen b) := by
  induction cs with
  | nil => rfl
  | cons d cs ih =>
      by_cases hd : d = '\n'
      · subst hd
        rw [widen_newline, breakOn, if_neg (Ne.symm hr), breakOn, if_neg (Ne.symm hn), ih, breakOn,
          if_neg (Ne.symm hn)]
        cases breakOn c cs <;> rfl
      · rw [widen_cons hd, breakOn, breakOn]
        split
        · rfl
        · rw [ih]
          cases breakOn c cs with
          | none => rfl
          | some r => exact congrArg some (Prod.ext (widen_cons hd r.1).symm rfl)

theorem splitOn_widen (hn : c ≠ '\n') (hr : c ≠ '\r') (cs : List Char) :
    splitOn c (widen cs) = (splitOn c cs).map widen := by
  induction cs with
  | nil => rfl
  | cons d cs ih =>
      by_cases hd : d = '\n'
      · subst hd
        rw [widen_newline, splitOn, if_neg (Ne.symm hr), splitOn, if_neg (Ne.symm hn), ih, splitOn,
          if_neg (Ne.symm hn)]
        cases splitOn c cs <;> rfl
      · rw [widen_cons hd, splitOn, splitOn, ih]
        split
        · rfl
        · cases splitOn c cs with
          | nil => rw [List.map_nil, List.map_singleton, widen_cons hd]; rfl
          | cons w ws => rw [List.map_cons, List.map_cons, widen_cons hd]

end Scaffold.Text
