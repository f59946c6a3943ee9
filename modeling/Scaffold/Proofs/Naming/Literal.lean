import Mathlib.Data.List.TakeWhile
import Scaffold.Naming.Literal
import Scaffold.Proofs.Json.Pieces

/-!
# `Scaffold.Proofs.Naming.Literal` — when only keys lose their quotes

The literal of a value is made from its written text, in which a key is known by its quotes and the
colon after them. That text does not tell keys from texts: whatever stands between two quotes of which
the second has a colon behind it is taken for a key. Two things can go wrong. A text may hold a quote
with a colon behind it, and then a part of the text is taken for a key (`HoldsKey`). Or a text may
begin with a colon, and then all between the text before and this one is (`Piece.onColon`).

The literal is the written value with the quotes of its keys dropped, and nothing else, exactly if
neither happens (`literal_bare_iff`).

## Contents
- **Keys in a text.** `isKeyChar_iff`, `ReadsKey`, `HoldsKey`, `opensKey_iff`.
- **Written texts.** `escaped_cases`, `readsKey_escaped`.
- **Unquoting.** `unquoteKeys_append`, `unquoteKeys_key`, `unquoteKeys_quote_iff`,
  `unquoteKeys_text_iff`, `exists_unquoteKeys_append`.
- **Identifiers.** `isIdentifier`, `written_of_isIdentifier`.
- **Literals.** `Unmistakable`, `unquoteKeys_pieces_iff`, `literal_bare_iff`.
-/

namespace Scaffold.Naming

open Json (IsJson Laid Piece bareText escaped isMarkChar pieces quotedText writeChars writeString)
open Text (isDigit isLower isUpper)

/-! ## Keys in a text -/

/-- What follows a quote reads as a key: up to the next quote there is no parenthesis, and behind that
    quote there is a colon. -/
def ReadsKey (cs : List Char) : Prop :=
  ∃ a b, cs = a ++ '\x22' :: ':' :: b ∧ ∀ c ∈ a, isKeyChar c = true

/-- What follows one of the quotes reads as a key. -/
def HoldsKey (cs : List Char) : Prop := ∃ a b, cs = a ++ '\x22' :: b ∧ ReadsKey b

theorem isKeyChar_iff {c : Char} :
    isKeyChar c = true ↔ (c ≠ '(' ∧ c ≠ ')') ∧ c ≠ '\x22' := by
  simp [isKeyChar]

theorem ne_quote_of_isKeyChar {c : Char} (h : isKeyChar c = true) : c ≠ '\x22' :=
  (isKeyChar_iff.mp h).2

theorem not_readsKey_nil : ¬ReadsKey [] := by
  rintro ⟨a, b, hcs, -⟩
  exact absurd (congrArg List.length hcs) (by simp)

theorem readsKey_cons {c : Char} {cs : List Char} :
    ReadsKey (c :: cs) ↔
      (c = '\x22' ∧ cs.head? = some ':') ∨ (isKeyChar c = true ∧ ReadsKey cs) := by
  constructor
  · rintro ⟨a, b, hcs, ha⟩
    cases a with
    | nil =>
        cases hcs
        exact .inl ⟨rfl, rfl⟩
    | cons x a =>
        cases hcs
        obtain ⟨hx, ha⟩ := List.forall_mem_cons.mp ha
        exact .inr ⟨hx, a, b, rfl, ha⟩
  · rintro (⟨rfl, hhead⟩ | ⟨hc, a, b, rfl, ha⟩)
    · obtain ⟨b, rfl⟩ := List.head?_eq_some_iff.mp hhead
      exact ⟨[], b, rfl, fun c hc => absurd hc List.not_mem_nil⟩
    · exact ⟨c :: a, b, rfl, List.forall_mem_cons.mpr ⟨hc, ha⟩⟩

theorem readsKey_quote {cs : List Char} : ReadsKey ('\x22' :: cs) ↔ cs.head? = some ':' := by
  rw [readsKey_cons]
  simp [isKeyChar]

theorem readsKey_append {a cs : List Char} (h : ∀ c ∈ a, isKeyChar c = true) :
    ReadsKey (a ++ cs) ↔ ReadsKey cs := by
  induction a with
  | nil => rfl
  | cons c a ih =>
      obtain ⟨hc, ha⟩ := List.forall_mem_cons.mp h
      rw [List.cons_append, readsKey_cons, ih ha]
      simp [hc, ne_quote_of_isKeyChar hc]

theorem not_holdsKey_nil : ¬HoldsKey [] := by
  rintro ⟨a, b, hcs, -⟩
  exact absurd (congrArg List.length hcs) (by simp)

theorem holdsKey_cons {c : Char} {cs : List Char} :
    HoldsKey (c :: cs) ↔ (c = '\x22' ∧ ReadsKey cs) ∨ HoldsKey cs := by
  constructor
  · rintro ⟨a, b, hcs, hb⟩
    cases a with
    | nil =>
        cases hcs
        exact .inl ⟨rfl, hb⟩
    | cons x a =>
        cases hcs
        exact .inr ⟨a, b, rfl, hb⟩
  · rintro (⟨rfl, hcs⟩ | ⟨a, b, rfl, hb⟩)
    · exact ⟨[], cs, rfl, hcs⟩
    · exact ⟨c :: a, b, rfl, hb⟩

instance decidableReadsKey : ∀ cs : List Char, Decidable (ReadsKey cs)
  | [] => .isFalse not_readsKey_nil
  | _ :: cs =>
    haveI := decidableReadsKey cs
    decidable_of_iff _ readsKey_cons.symm

instance decidableHoldsKey : ∀ cs : List Char, Decidable (HoldsKey cs)
  | [] => .isFalse not_holdsKey_nil
  | _ :: cs =>
    haveI := decidableHoldsKey cs
    decidable_of_iff _ holdsKey_cons.symm

theorem readsKey_iff_dropWhile {cs : List Char} :
    ReadsKey cs ↔ ∃ b, cs.dropWhile isKeyChar = '\x22' :: ':' :: b := by
  constructor
  · rintro ⟨a, b, rfl, ha⟩
    exact ⟨b, by rw [List.dropWhile_append_of_pos ha]; rfl⟩
  · rintro ⟨b, hb⟩
    refine ⟨cs.takeWhile isKeyChar, b, ?_, fun c hc => List.mem_takeWhile_imp hc⟩
    rw [← hb, List.takeWhile_append_dropWhile]

/-- **A quote opens a key if what follows reads as one and does not close it at once.** -/
theorem opensKey_iff {cs : List Char} :
    opensKey cs = true ↔ cs.head? ≠ some '\x22' ∧ ReadsKey cs := by
  have hopens : opensKey cs = true ↔ cs.takeWhile isKeyChar ≠ [] ∧ ReadsKey cs := by
    rw [readsKey_iff_dropWhile]
    unfold opensKey
    split <;> simp_all
  rw [hopens]
  refine and_congr_left fun hreads => ?_
  cases cs with
  | nil => exact absurd hreads not_readsKey_nil
  | cons c cs =>
      rcases readsKey_cons.mp hreads with ⟨rfl, -⟩ | ⟨hc, -⟩
      · simp [isKeyChar]
      · simp [hc, ne_quote_of_isKeyChar hc]

/-! ## Written texts -/

theorem isKeyChar_of_isMarkChar {c : Char} (h : isMarkChar c = true) : isKeyChar c = true := by
  refine isKeyChar_iff.mpr ⟨⟨?_, ?_⟩, ?_⟩
  all_goals
    rintro rfl
    exact absurd h (by decide)

theorem escaped_quote : escaped false '\x22' = ['\\', '\x22'] := rfl

/-- The characters with a letter of their own behind the backslash. -/
def lettered : List Char := ['\\', '\n', '\r', '\t', '\x08', '\x0c']

theorem escaped_of_not_lettered {c : Char} (hquote : c ≠ '\x22') (h : c ∉ lettered) :
    escaped false c = if c.toNat < 0x20 then '\\' :: 'u' :: Json.hex4 c.toNat else [c] := by
  simp only [lettered, List.mem_cons, List.not_mem_nil, or_false, not_or] at h
  obtain ⟨h₁, h₂, h₃, h₄, h₅, h₆⟩ := h
  unfold escaped
  rw [if_neg hquote, if_neg h₁, if_neg h₂, if_neg h₃, if_neg h₄, if_neg h₅, if_neg h₆,
    Bool.false_and, if_neg Bool.false_ne_true]

/-- **A character that is no quote is written as it is, or with a backslash and characters of keys.** -/
theorem escaped_cases {c : Char} (hquote : c ≠ '\x22') :
    escaped false c = [c] ∨
      ((escaped false c).head? = some '\\' ∧ c ≠ ':' ∧ isKeyChar c = true ∧
        ∀ d ∈ escaped false c, isKeyChar d = true) := by
  by_cases hlettered : c ∈ lettered
  · simp only [lettered, List.mem_cons, List.not_mem_nil, or_false] at hlettered
    refine .inr ?_
    rw [← List.all_eq_true]
    rcases hlettered with rfl | rfl | rfl | rfl | rfl | rfl <;> decide
  rw [escaped_of_not_lettered hquote hlettered]
  by_cases hcontrol : c.toNat < 0x20
  · rw [if_pos hcontrol]
    have hother : ∀ d : Char, 0x20 ≤ d.toNat → c ≠ d := by
      rintro d hd rfl
      omega
    refine .inr ⟨rfl, hother ':' (by decide), ?_, ?_⟩
    · exact isKeyChar_iff.mpr ⟨⟨hother '(' (by decide), hother ')' (by decide)⟩, hquote⟩
    · have hdigits : ∀ d ∈ Json.hex4 c.toNat, isKeyChar d = true := fun d hd =>
        isKeyChar_of_isMarkChar (Json.isMarkChar_of_numeral (Json.numeral_hex4 _) d hd)
      exact List.forall_mem_cons.mpr ⟨by decide, List.forall_mem_cons.mpr ⟨by decide, hdigits⟩⟩
  · rw [if_neg hcontrol]
    exact .inl rfl

theorem writeString_append (s : String) (rest : List Char) :
    writeString false s ++ rest =
      '\x22' :: (s.toList.flatMap (escaped false) ++ '\x22' :: rest) := by
  simp [writeString]

/-- A written text begins with a colon if the text does. -/
theorem head?_escaped {cs rest : List Char} :
    (cs.flatMap (escaped false) ++ '\x22' :: rest).head? = some ':' ↔ cs.head? = some ':' := by
  cases cs with
  | nil => simp
  | cons c cs =>
      rw [List.flatMap_cons]
      by_cases hquote : c = '\x22'
      · simp [hquote, escaped_quote]
      rcases escaped_cases hquote with hc | ⟨hhead, hc, -⟩
      · simp [hc]
      · obtain ⟨r, hr⟩ := List.head?_eq_some_iff.mp hhead
        simp [hr, hc]

/-- **What follows a quote of a text reads as a key if it does as it is written.** -/
theorem readsKey_escaped {cs rest : List Char} (hrest : rest.head? ≠ some ':') :
    ReadsKey (cs.flatMap (escaped false) ++ '\x22' :: rest) ↔ ReadsKey cs := by
  induction cs with
  | nil => simp [readsKey_quote, hrest, not_readsKey_nil]
  | cons c cs ih =>
      rw [List.flatMap_cons, List.append_assoc]
      by_cases hquote : c = '\x22'
      · rw [hquote, escaped_quote]
        show ReadsKey (['\\'] ++ '\x22' :: (cs.flatMap (escaped false) ++ '\x22' :: rest)) ↔ _
        rw [readsKey_append (by simp [isKeyChar]), readsKey_quote, readsKey_quote, head?_escaped]
      rcases escaped_cases hquote with hc | ⟨-, -, hc, hkey⟩
      · rw [hc, List.singleton_append, readsKey_cons, readsKey_cons, ih]
        simp [hquote]
      · rw [readsKey_append hkey, ih, readsKey_cons]
        simp [hquote, hc]

theorem opensKey_escaped {cs rest : List Char} (hrest : rest.head? ≠ some ':') :
    opensKey (cs.flatMap (escaped false) ++ '\x22' :: rest) = true ↔ ReadsKey cs := by
  rw [opensKey_iff, readsKey_escaped hrest]
  refine and_iff_right_of_imp fun hreads => ?_
  cases cs with
  | nil => exact absurd hreads not_readsKey_nil
  | cons c cs =>
      rw [List.flatMap_cons]
      by_cases hquote : c = '\x22'
      · simp [hquote, escaped_quote]
      rcases escaped_cases hquote with hc | ⟨hhead, -⟩
      · simp [hc, hquote]
      · obtain ⟨r, hr⟩ := List.head?_eq_some_iff.mp hhead
        simp [hr]

/-! ## Unquoting -/

theorem unquoteKeys_append {a : List Char} (h : ∀ c ∈ a, c ≠ '\x22') (cs : List Char) :
    unquoteKeys false (a ++ cs) = a ++ unquoteKeys false cs := by
  induction a with
  | nil => rfl
  | cons c a ih =>
      obtain ⟨hc, ha⟩ := List.forall_mem_cons.mp h
      rw [List.cons_append, unquoteKeys, if_neg (by simp [hc]), ih ha]
      rfl

theorem unquoteKeys_inKey {a : List Char} (h : ∀ c ∈ a, c ≠ '\x22') (cs : List Char) :
    unquoteKeys true (a ++ '\x22' :: cs) = a ++ unquoteKeys false cs := by
  induction a with
  | nil => rfl
  | cons c a ih =>
      obtain ⟨hc, ha⟩ := List.forall_mem_cons.mp h
      rw [List.cons_append, unquoteKeys, if_neg hc, ih ha]
      rfl

/-- **A key loses its quotes.** -/
theorem unquoteKeys_key {name : List Char} (hname : name ≠ [])
    (h : ∀ c ∈ name, isKeyChar c = true) (cs : List Char) :
    unquoteKeys false ('\x22' :: (name ++ '\x22' :: ':' :: cs)) =
      name ++ ':' :: unquoteKeys false cs := by
  have hquote : ∀ c ∈ name, c ≠ '\x22' := fun c hc => ne_quote_of_isKeyChar (h c hc)
  have hopens : opensKey (name ++ '\x22' :: ':' :: cs) = true := by
    refine opensKey_iff.mpr ⟨?_, name, cs, rfl, h⟩
    obtain ⟨c, r, rfl⟩ := List.exists_cons_of_ne_nil hname
    simpa using hquote c List.mem_cons_self
  rw [unquoteKeys, if_pos (by simp [hopens]), unquoteKeys_inKey hquote]
  exact congrArg (name ++ ·) (unquoteKeys_append (a := [':']) (by simp) cs)

/-- **A quote stays exactly if it opens no key**: with the quote of a key dropped, a character of the key
    stands in its place. -/
theorem unquoteKeys_quote_iff {cs out : List Char} :
    unquoteKeys false ('\x22' :: cs) = '\x22' :: out ↔
      opensKey cs = false ∧ unquoteKeys false cs = out := by
  cases hopens : opensKey cs with
  | false =>
      rw [unquoteKeys, if_neg (by simp [hopens])]
      simp
  | true =>
      rw [unquoteKeys, if_pos (by simp [hopens])]
      obtain ⟨hhead, hreads⟩ := opensKey_iff.mp hopens
      cases cs with
      | nil => exact absurd hreads not_readsKey_nil
      | cons c cs =>
          have hc : c ≠ '\x22' := fun h => hhead (congrArg some h)
          rw [unquoteKeys, if_neg hc]
          simp [hc]

/-- **A text stays exactly if no part of it is taken for a key, nor what follows it.** -/
theorem unquoteKeys_text_iff {cs rest out : List Char} (hrest : rest.head? ≠ some ':') :
    unquoteKeys false (cs.flatMap (escaped false) ++ '\x22' :: rest) =
        cs.flatMap (escaped false) ++ '\x22' :: out ↔
      ¬HoldsKey cs ∧ opensKey rest = false ∧ unquoteKeys false rest = out := by
  induction cs with
  | nil => simpa [not_holdsKey_nil] using unquoteKeys_quote_iff
  | cons c cs ih =>
      rw [List.flatMap_cons, List.append_assoc, List.append_assoc, holdsKey_cons]
      by_cases hquote : c = '\x22'
      · rw [hquote, escaped_quote]
        show unquoteKeys false
            (['\\'] ++ '\x22' :: (cs.flatMap (escaped false) ++ '\x22' :: rest)) =
          ['\\'] ++ '\x22' :: (cs.flatMap (escaped false) ++ '\x22' :: out) ↔ _
        rw [unquoteKeys_append (by simp), List.append_cancel_left_eq, unquoteKeys_quote_iff,
          ← Bool.not_eq_true, opensKey_escaped hrest, ih, not_or, and_assoc]
        simp
      have hplain : ∀ d ∈ escaped false c, d ≠ '\x22' := by
        rcases escaped_cases hquote with hc | ⟨-, -, -, hkey⟩
        · simpa [hc] using hquote
        · exact fun d hd => ne_quote_of_isKeyChar (hkey d hd)
      rw [unquoteKeys_append hplain, List.append_cancel_left_eq, ih]
      simp [hquote]

/-- The last character stays if it is no quote. -/
theorem exists_unquoteKeys_append {c : Char} (hc : c ≠ '\x22') (inKey : Bool) (cs : List Char) :
    ∃ out, unquoteKeys inKey (cs ++ [c]) = out ++ [c] := by
  induction cs generalizing inKey with
  | nil =>
      refine ⟨[], ?_⟩
      cases inKey with
      | true => rw [List.nil_append, unquoteKeys, if_neg hc, unquoteKeys]
      | false => rw [List.nil_append, unquoteKeys, if_neg (by simp [hc]), unquoteKeys]
  | cons d cs ih =>
      obtain ⟨inside, hinside⟩ := ih true
      obtain ⟨outside, houtside⟩ := ih false
      rw [List.cons_append]
      cases inKey with
      | true =>
          rw [unquoteKeys, hinside, houtside]
          split
          · exact ⟨outside, rfl⟩
          · exact ⟨d :: inside, rfl⟩
      | false =>
          rw [unquoteKeys, hinside, houtside]
          split
          · exact ⟨inside, rfl⟩
          · exact ⟨d :: outside, rfl⟩

/-! ## Identifiers -/

/-- A letter, an underscore or a dollar sign. -/
def isIdentifierStart (c : Char) : Bool := isUpper c || isLower c || c = '_' || c = '$'

/-- A character of an identifier. -/
def isIdentifierChar (c : Char) : Bool := isIdentifierStart c || isDigit c

/-- An identifier. -/
def isIdentifier (s : String) : Bool :=
  match s.toList with
  | [] => false
  | c :: r => isIdentifierStart c && r.all isIdentifierChar

theorem ne_of_isIdentifierChar {c d : Char} (hc : isIdentifierChar c = true)
    (hd : isIdentifierChar d = false) : c ≠ d := by
  rintro rfl
  exact absurd (hd.symm.trans hc) Bool.false_ne_true

theorem isKeyChar_of_isIdentifierChar {c : Char} (h : isIdentifierChar c = true) :
    isKeyChar c = true :=
  isKeyChar_iff.mpr ⟨⟨ne_of_isIdentifierChar h rfl, ne_of_isIdentifierChar h rfl⟩,
    ne_of_isIdentifierChar h rfl⟩

theorem escaped_of_isIdentifierChar {c : Char} (h : isIdentifierChar c = true) :
    escaped false c = [c] := by
  have hlettered : c ∉ lettered := by
    intro hc
    simp only [lettered, List.mem_cons, List.not_mem_nil, or_false] at hc
    rcases hc with rfl | rfl | rfl | rfl | rfl | rfl <;> exact absurd h (by decide)
  have hcontrol : ¬c.toNat < 0x20 := by
    intro hlow
    simp only [isIdentifierChar, isIdentifierStart, isUpper, isLower, isDigit, Bool.or_eq_true,
      Bool.and_eq_true, decide_eq_true_eq] at h
    rcases h with (((_ | _) | rfl) | rfl) | _
    all_goals first
      | omega
      | exact absurd hlow (by decide)
  rw [escaped_of_not_lettered (ne_of_isIdentifierChar h rfl) hlettered, if_neg hcontrol]

/-- An identifier is written as it is, and begins with no colon. -/
theorem written_of_isIdentifier {name : String} (h : isIdentifier name = true) :
    name.toList ≠ [] ∧ name.toList.head? ≠ some ':' ∧
      (∀ c ∈ name.toList, isKeyChar c = true) ∧
        name.toList.flatMap (escaped false) = name.toList := by
  have hchars : name.toList ≠ [] ∧ ∀ c ∈ name.toList, isIdentifierChar c = true := by
    unfold isIdentifier at h
    split at h
    · exact nomatch h
    · rename_i c r hname
      rw [Bool.and_eq_true, List.all_eq_true] at h
      rw [hname]
      refine ⟨List.cons_ne_nil c r, List.forall_mem_cons.mpr ⟨?_, h.2⟩⟩
      rw [isIdentifierChar, h.1, Bool.true_or]
  obtain ⟨hne, hchars⟩ := hchars
  refine ⟨hne, fun hhead => ?_, fun c hc => isKeyChar_of_isIdentifierChar (hchars c hc), ?_⟩
  · exact ne_of_isIdentifierChar (hchars ':' (List.mem_of_head? hhead)) rfl rfl
  · rw [List.flatMap_congr fun c hc => escaped_of_isIdentifierChar (hchars c hc)]
    exact List.flatMap_singleton' _

theorem quoted_key {name : String} (h : isIdentifier name = true) (rest : List Char) :
    (Piece.key name).quoted ++ rest = '\x22' :: (name.toList ++ '\x22' :: ':' :: rest) := by
  obtain ⟨-, -, -, hsame⟩ := written_of_isIdentifier h
  show writeString false name ++ [':'] ++ rest = _
  rw [List.append_assoc, writeString_append, hsame]
  rfl

/-! ## Literals -/

/-- No text holds what reads as a key, and no text that begins with a colon is the next one after
    another text, with no key between them. -/
structure Unmistakable (ps : List Piece) : Prop where
  closed : ∀ s, .text s ∈ ps → ¬HoldsKey ('\x22' :: s.toList)
  apart : (ps.filter (!·.isMark)).IsChain fun p q => p.isText = true → q.onColon = false

section Pieces

variable {ps : List Piece}

theorem unmistakable_nil : Unmistakable [] :=
  ⟨fun _ h => absurd h List.not_mem_nil, List.isChain_nil⟩

theorem unmistakable_mark {cs : List Char} : Unmistakable (.mark cs :: ps) ↔ Unmistakable ps := by
  constructor
  · exact fun h => ⟨fun s hs => h.closed s (List.mem_cons_of_mem _ hs), h.apart⟩
  · refine fun h => ⟨fun s hs => ?_, h.apart⟩
    exact h.closed s ((List.mem_cons.mp hs).resolve_left nofun)

theorem unmistakable_key {name : String} : Unmistakable (.key name :: ps) ↔ Unmistakable ps := by
  have hapart : ∀ qs : List Piece, (Piece.key name :: qs).IsChain
      (fun p q => p.isText = true → q.onColon = false) ↔
        qs.IsChain fun p q => p.isText = true → q.onColon = false := by
    intro qs
    rw [List.isChain_cons]
    exact and_iff_right fun q _ => nofun
  constructor
  · intro h
    exact ⟨fun s hs => h.closed s (List.mem_cons_of_mem _ hs), (hapart _).mp h.apart⟩
  · refine fun h => ⟨fun s hs => ?_, (hapart _).mpr h.apart⟩
    exact h.closed s ((List.mem_cons.mp hs).resolve_left nofun)

theorem unmistakable_text {s : String} :
    Unmistakable (.text s :: ps) ↔ ¬HoldsKey ('\x22' :: s.toList) ∧
      (∀ q ∈ (ps.filter (!·.isMark)).head?, q.onColon = false) ∧ Unmistakable ps := by
  have hapart : ∀ qs : List Piece, (Piece.text s :: qs).IsChain
      (fun p q => p.isText = true → q.onColon = false) ↔
        (∀ q ∈ qs.head?, q.onColon = false) ∧
          qs.IsChain fun p q => p.isText = true → q.onColon = false := by
    intro qs
    rw [List.isChain_cons]
    simp [Piece.isText]
  constructor
  · intro h
    obtain ⟨hnext, hrest⟩ := (hapart _).mp h.apart
    exact ⟨h.closed s List.mem_cons_self, hnext,
      fun t ht => h.closed t (List.mem_cons_of_mem _ ht), hrest⟩
  · rintro ⟨hs, hnext, hps⟩
    refine ⟨fun t ht => ?_, (hapart _).mpr ⟨hnext, hps.apart⟩⟩
    rcases List.mem_cons.mp ht with ht | ht
    · cases ht
      exact hs
    · exact hps.closed t ht

/-- **What follows reads as a key if the next text or key is a text that begins with a colon.** -/
theorem readsKey_quotedText (hmarks : ∀ cs, .mark cs ∈ ps → ∀ c ∈ cs, isMarkChar c = true)
    (hkeys : ∀ name, .key name ∈ ps → isIdentifier name = true) :
    ReadsKey (quotedText ps) ↔ ∃ q ∈ (ps.filter (!·.isMark)).head?, q.onColon = true := by
  induction ps with
  | nil => simp [not_readsKey_nil]
  | cons p ps ih =>
      rw [Json.quotedText_cons]
      cases p with
      | mark cs =>
          have hcs : ∀ c ∈ cs, isKeyChar c = true := fun c hc =>
            isKeyChar_of_isMarkChar (hmarks cs List.mem_cons_self c hc)
          show ReadsKey (cs ++ quotedText ps) ↔ _
          rw [readsKey_append hcs, ih (fun ds hds => hmarks ds (List.mem_cons_of_mem _ hds))
            (fun name hname => hkeys name (List.mem_cons_of_mem _ hname))]
          rfl
      | key name =>
          have hname := hkeys name List.mem_cons_self
          obtain ⟨hne, hcolon, -⟩ := written_of_isIdentifier hname
          obtain ⟨c, r, hcons⟩ := List.exists_cons_of_ne_nil hne
          rw [quoted_key hname, readsKey_quote]
          rw [hcons] at hcolon ⊢
          simpa [Piece.isMark, Piece.onColon] using hcolon
      | text s =>
          show ReadsKey (writeString false s ++ quotedText ps) ↔ _
          rw [writeString_append, readsKey_quote, head?_escaped]
          simp [Piece.isMark, Piece.onColon]

/-- **Only keys lose their quotes exactly if nothing else can be taken for one.** -/
theorem unquoteKeys_pieces_iff (hlaid : Laid ps)
    (hkeys : ∀ name, .key name ∈ ps → isIdentifier name = true) :
    unquoteKeys false (quotedText ps) = bareText ps ↔ Unmistakable ps := by
  induction ps with
  | nil => exact iff_of_true rfl unmistakable_nil
  | cons p ps ih =>
      have hkeys' : ∀ name, .key name ∈ ps → isIdentifier name = true := fun name hname =>
        hkeys name (List.mem_cons_of_mem _ hname)
      have ih := ih hlaid.tail hkeys'
      rw [Json.quotedText_cons, Json.bareText_cons]
      cases p with
      | mark cs =>
          have hcs : ∀ c ∈ cs, c ≠ '\x22' := fun c hc => ne_quote_of_isKeyChar
            (isKeyChar_of_isMarkChar (hlaid.marks cs List.mem_cons_self c hc))
          show unquoteKeys false (cs ++ quotedText ps) = cs ++ bareText ps ↔ _
          rw [unquoteKeys_append hcs, List.append_cancel_left_eq, ih, unmistakable_mark]
      | key name =>
          have hname := hkeys name List.mem_cons_self
          obtain ⟨hne, -, hchars, -⟩ := written_of_isIdentifier hname
          have hbare : (Piece.key name).bare ++ bareText ps =
              name.toList ++ ':' :: bareText ps := by
            simp [Piece.bare]
          rw [quoted_key hname, unquoteKeys_key hne hchars, hbare, unmistakable_key, ← ih,
            List.append_cancel_left_eq, List.cons_inj_right]
      | text s =>
          have hnext := hlaid.head?_of_text
          have hcolon : (quotedText ps).head? ≠ some ':' := fun h =>
            absurd (hnext ':' h) (by decide)
          have hquote : (quotedText ps).head? ≠ some '\x22' := fun h =>
            absurd (hnext '\x22' h) (by decide)
          have hopens : opensKey (quotedText ps) = false ↔
              ∀ q ∈ (ps.filter (!·.isMark)).head?, q.onColon = false := by
            rw [← Bool.not_eq_true, opensKey_iff, and_iff_right hquote,
              readsKey_quotedText hlaid.tail.marks hkeys']
            simp
          show unquoteKeys false (writeString false s ++ quotedText ps) =
            writeString false s ++ bareText ps ↔ _
          rw [writeString_append, writeString_append, unquoteKeys_quote_iff,
            unquoteKeys_text_iff hcolon, hopens, ih, ← Bool.not_eq_true, opensKey_escaped hcolon,
            unmistakable_text, holdsKey_cons, not_or]
          simp [and_assoc]

end Pieces

/-- **The literal of a value whose keys are identifiers is the written value with the quotes of its keys
    dropped, and without its braces, exactly if nothing in it can be mistaken for a key.** -/
theorem literal_bare_iff {es : Entries} (hjson : IsJson Json.writeLimit (.map es))
    (hkeys : ∀ name, .key name ∈ pieces (.map es) → isIdentifier name = true) :
    writeChars .compact Json.writeLimit (.map es) = .ok (quotedText (pieces (.map es))) ∧
      ∃ text, literal (.map es) = .ok text ∧
        ('\x7b' :: text.toList ++ ['\x7d'] = bareText (pieces (.map es)) ↔
          Unmistakable (pieces (.map es))) := by
  have hwrite := Json.writeChars_pieces (.map es) hjson.plain hjson.short hjson.shallow
  -- the braces stay, so that there is something to drop at both ends
  obtain ⟨out, hout⟩ := exists_unquoteKeys_append (c := '\x7d') (by decide) false
    (quotedText (Json.entryPieces es))
  have hbraces : unquoteKeys false (quotedText (pieces (.map es))) =
      '\x7b' :: out ++ ['\x7d'] := by
    rw [List.cons_append, ← hout]
    rw [pieces, List.cons_append, Json.quotedText_cons, Json.quotedText_append]
    exact unquoteKeys_append (a := ['\x7b']) (by simp) _
  have hliteral : literal (.map es) = .ok (String.ofList out) := by
    rw [literal, hwrite, Except.map, hbraces, inner, List.cons_append, List.tail_cons,
      List.dropLast_concat]
  refine ⟨hwrite, String.ofList out, hliteral, ?_⟩
  rw [String.toList_ofList, ← hbraces]
  exact unquoteKeys_pieces_iff (Json.laid_pieces (.map es)) hkeys

/-- With quotes, colons and parentheses in the texts. -/
theorem literal_bare_column :
    let v : Value := .map [(.text "comment", .text "f(\x22a\x22): b"),
      (.text "enum", .list [.text "x", .text "y:"])]
    IsJson Json.writeLimit v ∧ (∀ name, .key name ∈ pieces v → isIdentifier name = true) ∧
      ∃ text, literal v = .ok text ∧ '\x7b' :: text.toList ++ ['\x7d'] = bareText (pieces v) := by
  intro v
  have hjson : IsJson Json.writeLimit v := ⟨⟨by decide, by decide⟩, by decide⟩
  have hkeys : ∀ name, .key name ∈ pieces v → isIdentifier name = true := by
    intro name hname
    simp only [v, pieces, Json.entryPieces, Json.keyPiece, Json.itemPieces] at hname
    simp at hname
    rcases hname with rfl | rfl <;> decide
  have hclear : Unmistakable (pieces v) := by
    constructor
    · intro s hs
      simp only [v, pieces, Json.entryPieces, Json.keyPiece, Json.itemPieces] at hs
      simp at hs
      rcases hs with rfl | rfl | rfl <;> decide
    · decide
  obtain ⟨-, text, htext, hiff⟩ := literal_bare_iff hjson hkeys
  exact ⟨hjson, hkeys, text, htext, hiff.mpr hclear⟩

/-- What looks like a key in a text loses its quotes too. -/
theorem not_literal_bare :
    ¬∀ es : Entries, IsJson Json.writeLimit (.map es) →
      (∀ name, .key name ∈ pieces (.map es) → isIdentifier name = true) →
        ∃ text, literal (.map es) = .ok text ∧
          '\x7b' :: text.toList ++ ['\x7d'] = bareText (pieces (.map es)) := by
  intro h
  have hkeys : ∀ name, .key name ∈ pieces (.map [(.text "comment", .text "the \x22id\x22: key")]) →
      isIdentifier name = true := by
    intro name hname
    simp only [pieces, Json.entryPieces, Json.keyPiece] at hname
    simp at hname
    subst hname
    decide
  obtain ⟨text, htext, hbare⟩ := h _ ⟨⟨by decide, by decide⟩, by decide⟩ hkeys
  have hliteral : literal (.map [(.text "comment", .text "the \x22id\x22: key")]) =
      .ok "comment:\x22the \\id\\: key\x22" := rfl
  cases hliteral.symm.trans htext
  exact absurd hbare (by decide)

end Scaffold.Naming
