import Mathlib.Data.List.Chain
import Scaffold.Proofs.Json.Numerals
import Scaffold.Proofs.Json.Writer

/-!
# `Scaffold.Proofs.Json.Pieces` — what a written value is made of

A written value is a row of pieces: keys, texts, and marks for everything else (`writeChars_pieces`). In
the written text the three look alike, for a text may hold anything; the pieces keep them apart. Marks
are numbers, names of constants, brackets and commas, and after a text there is a mark or nothing
(`laid_pieces`).

## Contents
- **Pieces.** `Piece`, `pieces`, `quotedText`, `bareText`.
- **Writing.** `writeChars_pieces`, `writeItems_pieces`, `writeEntries_pieces`.
- **Order.** `isMarkChar`, `Laid`, `laid_pieces`.
-/

namespace Scaffold.Json

open Decimal (Binary64 Numeral isNumeralChar)

/-! ## Pieces -/

/-- A piece of a written value: a key with its colon, a text, or anything else, which holds no
    quotes. -/
inductive Piece
  | mark (cs : List Char)
  | key (name : String)
  | text (s : String)

/-- A piece as it is written. -/
def Piece.quoted : Piece → List Char
  | .mark cs => cs
  | .key name => writeString false name ++ [':']
  | .text s => writeString false s

/-- A piece as it is written, a key without its quotes. -/
def Piece.bare : Piece → List Char
  | .mark cs => cs
  | .key name => name.toList ++ [':']
  | .text s => writeString false s

/-- A piece that is neither a key nor a text. -/
def Piece.isMark : Piece → Bool
  | .mark _ => true
  | _ => false

/-- A text. -/
def Piece.isText : Piece → Bool
  | .text _ => true
  | _ => false

/-- A text that begins with a colon. -/
def Piece.onColon : Piece → Bool
  | .text s => s.toList.head? = some ':'
  | _ => false

/-- A key that is a text. -/
def keyPiece : Value → List Piece
  | .text s => [.key s]
  | _ => []

mutual

/-- The pieces of a written value, without blanks between them. -/
def pieces : Value → List Piece
  | .null => [.mark "null".toList]
  | .bool b => [.mark (if b then "true".toList else "false".toList)]
  | .int n => [.mark (Decimal.intText n).toList]
  | .float x => [.mark (floatText x).toList]
  | .text s => [.text s]
  | .list xs => .mark ['['] :: itemPieces xs ++ [.mark [']']]
  | .map es => .mark ['\x7b'] :: entryPieces es ++ [.mark ['\x7d']]
  | _ => []

/-- The pieces of items with commas between them. -/
def itemPieces : List Value → List Piece
  | [] => []
  | [x] => pieces x
  | x :: y :: r => pieces x ++ .mark [','] :: itemPieces (y :: r)

/-- The pieces of entries with commas between them. -/
def entryPieces : List (Value × Value) → List Piece
  | [] => []
  | [(k, v)] => keyPiece k ++ pieces v
  | (k, v) :: e :: r => keyPiece k ++ pieces v ++ .mark [','] :: entryPieces (e :: r)

end

/-- The pieces as they are written, one after another. -/
def quotedText (ps : List Piece) : List Char := ps.flatMap Piece.quoted

/-- The pieces one after another, keys without their quotes. -/
def bareText (ps : List Piece) : List Char := ps.flatMap Piece.bare

@[simp] theorem quotedText_nil : quotedText [] = [] := rfl

@[simp] theorem quotedText_cons (p : Piece) (ps : List Piece) :
    quotedText (p :: ps) = p.quoted ++ quotedText ps := List.flatMap_cons

@[simp] theorem quotedText_append (ps qs : List Piece) :
    quotedText (ps ++ qs) = quotedText ps ++ quotedText qs := List.flatMap_append

@[simp] theorem bareText_nil : bareText [] = [] := rfl

@[simp] theorem bareText_cons (p : Piece) (ps : List Piece) :
    bareText (p :: ps) = p.bare ++ bareText ps := List.flatMap_cons

/-! ## Writing -/

mutual

/-- **A value is written piece by piece.** -/
theorem writeChars_pieces : ∀ (v : Value) {room : Nat}, v.plain = true → v.holdsLong = false →
    v.depth ≤ room → writeChars .compact room v = .ok (quotedText (pieces v))
  | .null => fun _ _ _ => by
      rw [writeChars, pieces]
      rfl
  | .bool b => fun _ _ _ => by
      rw [writeChars, pieces]
      cases b <;> rfl
  | .int n => fun _ hshort _ => by
      rw [Value.holdsLong] at hshort
      have htext : integerText n = .ok (Decimal.intText n) := by
        rw [integerText, if_neg (by rw [hshort]; exact Bool.false_ne_true)]
      rw [writeChars, pieces, htext]
      simp [Except.map, Piece.quoted]
  | .float x => fun _ _ _ => by
      rw [writeChars, pieces]
      simp [Piece.quoted]
  | .text s => fun _ _ _ => by
      rw [writeChars, pieces]
      simp [Piece.quoted, Style.compact]
  | .list xs => fun hplain hshort hdepth => by
      rw [Value.plain] at hplain
      rw [Value.holdsLong] at hshort
      rw [Value.depth] at hdepth
      obtain ⟨n, rfl⟩ := Nat.exists_eq_add_of_le' hdepth
      rw [writeChars, pieces, ← Nat.add_assoc, inside,
        writeItems_pieces xs hplain hshort (Nat.le_add_left _ _)]
      simp [Except.map, Piece.quoted]
  | .map es => fun hplain hshort hdepth => by
      rw [Value.plain] at hplain
      rw [Value.holdsLong] at hshort
      rw [Value.depth] at hdepth
      obtain ⟨n, rfl⟩ := Nat.exists_eq_add_of_le' hdepth
      rw [writeChars, pieces, ← Nat.add_assoc, inside,
        writeEntries_pieces es hplain hshort (Nat.le_add_left _ _)]
      simp [Except.map, Piece.quoted]
  | .bytes _ => fun hplain => absurd hplain (by simp [Value.plain])
  | .date _ => fun hplain => absurd hplain (by simp [Value.plain])
  | .moment _ => fun hplain => absurd hplain (by simp [Value.plain])
  | .set _ => fun hplain => absurd hplain (by simp [Value.plain])
  | .pair _ _ => fun hplain => absurd hplain (by simp [Value.plain])
  | .knot _ _ => fun hplain => absurd hplain (by simp [Value.plain])
  | .again _ _ => fun hplain => absurd hplain (by simp [Value.plain])

theorem writeItems_pieces : ∀ (xs : List Value) {room : Nat}, Value.plainList xs = true →
    Value.holdsLongList xs = false → Value.depthOfList xs ≤ room →
    writeItems .compact room xs = .ok (quotedText (itemPieces xs))
  | [] => fun _ _ _ => by
      rw [writeItems, itemPieces]
      rfl
  | [x] => fun hplain hshort hdepth => by
      rw [Value.plainList, Bool.and_eq_true] at hplain
      rw [Value.holdsLongList, Bool.or_eq_false_iff] at hshort
      rw [Value.depthOfList, Nat.max_le] at hdepth
      rw [writeItems, itemPieces]
      exact writeChars_pieces x hplain.1 hshort.1 hdepth.1
  | x :: y :: r => fun hplain hshort hdepth => by
      rw [Value.plainList, Bool.and_eq_true] at hplain
      rw [Value.holdsLongList, Bool.or_eq_false_iff] at hshort
      rw [Value.depthOfList, Nat.max_le] at hdepth
      rw [writeItems, itemPieces, writeChars_pieces x hplain.1 hshort.1 hdepth.1,
        writeItems_pieces (y :: r) hplain.2 hshort.2 hdepth.2]
      simp [bind, Except.bind, pure, Except.pure, Piece.quoted, Style.compact]

theorem writeEntries_pieces : ∀ (es : List (Value × Value)) {room : Nat},
    Value.plainEntries es = true → Value.holdsLongEntries es = false →
    Value.depthOfEntries es ≤ room →
    writeEntries .compact room es = .ok (quotedText (entryPieces es))
  | [] => fun _ _ _ => by
      rw [writeEntries, entryPieces]
      rfl
  | [(k, v)] => fun hplain hshort hdepth => by
      obtain ⟨⟨s, rfl⟩, hv, -⟩ := plainEntries_cons hplain
      obtain ⟨hlong, -⟩ := holdsLongEntries_cons hshort
      rw [Value.depthOfEntries, Nat.max_le] at hdepth
      rw [writeEntries, entryPieces, writeChars_pieces v hv hlong hdepth.1]
      simp [keyText, keyPiece, bind, Except.bind, pure, Except.pure, Piece.quoted,
        Style.compact]
  | (k, v) :: e :: r => fun hplain hshort hdepth => by
      obtain ⟨⟨s, rfl⟩, hv, hr⟩ := plainEntries_cons hplain
      obtain ⟨hlong, hlongs⟩ := holdsLongEntries_cons hshort
      rw [Value.depthOfEntries, Nat.max_le] at hdepth
      rw [writeEntries, entryPieces, writeChars_pieces v hv hlong hdepth.1,
        writeEntries_pieces (e :: r) hr hlongs hdepth.2]
      simp [keyText, keyPiece, bind, Except.bind, pure, Except.pure, Piece.quoted,
        Style.compact]

end

/-! ## Order -/

/-- A character of a mark: of a number or a constant, a bracket or a comma. -/
def isMarkChar (c : Char) : Bool :=
  isNumeralChar c || c = '[' || c = ']' || c = '\x7b' || c = '\x7d' || c = ','

/-- The order of the pieces of a value: marks hold mark characters only, and after a text comes a mark,
    if anything. -/
structure Laid (ps : List Piece) : Prop where
  marks : ∀ cs, .mark cs ∈ ps → ∀ c ∈ cs, isMarkChar c = true
  apart : List.IsChain (fun p q => p.isText = true → ∃ c cs, q = .mark (c :: cs)) ps

theorem laid_nil : Laid [] := ⟨fun _ h => absurd h List.not_mem_nil, List.isChain_nil⟩

theorem laid_text (s : String) : Laid [.text s] := by
  refine ⟨fun cs h => ?_, List.isChain_singleton _⟩
  exact absurd (List.mem_singleton.mp h) (by simp)

theorem Laid.cons {p : Piece} {ps : List Piece} (h : Laid ps)
    (hmark : ∀ cs, p = .mark cs → ∀ c ∈ cs, isMarkChar c = true) (htext : p.isText = false) :
    Laid (p :: ps) := by
  constructor
  · intro cs hcs
    rcases List.mem_cons.mp hcs with hp | hcs
    · exact hmark cs hp.symm
    · exact h.marks cs hcs
  · refine List.isChain_cons.mpr ⟨?_, h.apart⟩
    intro q _ hp
    exact absurd (htext.symm.trans hp) Bool.false_ne_true

theorem Laid.tail {p : Piece} {ps : List Piece} (h : Laid (p :: ps)) : Laid ps :=
  ⟨fun cs hcs => h.marks cs (List.mem_cons_of_mem _ hcs), h.apart.tail⟩

/-- Right after a text there is a character of a mark, if any. -/
theorem Laid.head?_of_text {s : String} {ps : List Piece} (h : Laid (.text s :: ps)) :
    ∀ c ∈ (quotedText ps).head?, isMarkChar c = true := by
  cases ps with
  | nil => exact fun c hc => nomatch hc
  | cons q ps =>
      obtain ⟨c, cs, rfl⟩ := (List.isChain_cons_cons.mp h.apart).1 rfl
      rintro d ⟨⟩
      exact h.tail.marks (c :: cs) List.mem_cons_self c List.mem_cons_self

theorem Laid.cons_mark {cs : List Char} {ps : List Piece} (h : Laid ps)
    (hcs : cs.all isMarkChar = true) : Laid (.mark cs :: ps) := by
  refine h.cons ?_ rfl
  rintro _ ⟨⟩
  exact List.all_eq_true.mp hcs

theorem laid_mark {cs : List Char} (hcs : cs.all isMarkChar = true) : Laid [.mark cs] :=
  laid_nil.cons_mark hcs

theorem Laid.key {k : Value} {ps : List Piece} (h : Laid ps) : Laid (keyPiece k ++ ps) := by
  cases k with
  | text s => exact h.cons (fun _ => nofun) rfl
  | _ => exact h

/-- What comes before a mark may end with a text. -/
theorem Laid.append {ps qs : List Piece} {c : Char} {cs : List Char} (hps : Laid ps)
    (hqs : Laid (.mark (c :: cs) :: qs)) : Laid (ps ++ .mark (c :: cs) :: qs) := by
  constructor
  · intro ds hds
    rcases List.mem_append.mp hds with h | h
    · exact hps.marks ds h
    · exact hqs.marks ds h
  · refine List.isChain_append.mpr ⟨hps.apart, hqs.apart, ?_⟩
    rintro p - q hq -
    exact ⟨c, cs, (Option.some.inj hq).symm⟩

theorem isMarkChar_of_numeral {cs : List Char} (h : Numeral cs) :
    ∀ c ∈ cs, isMarkChar c = true := by
  intro c hc
  simp [isMarkChar, h c hc]

mutual

/-- **The pieces of a value are laid in order.** -/
theorem laid_pieces : ∀ v : Value, Laid (pieces v)
  | .null => by
      rw [pieces]
      exact laid_mark (by decide)
  | .bool b => by
      rw [pieces]
      cases b <;> exact laid_mark (by decide)
  | .int n => by
      rw [pieces]
      exact laid_mark (List.all_eq_true.mpr (isMarkChar_of_numeral (Decimal.isNumeral_intText n)))
  | .float x => by
      rw [pieces]
      exact laid_mark (List.all_eq_true.mpr (isMarkChar_of_numeral (isNumeral_floatText x)))
  | .text s => by
      rw [pieces]
      exact laid_text s
  | .list xs => by
      rw [pieces]
      exact ((laid_itemPieces xs).append (laid_mark (by decide))).cons_mark (by decide)
  | .map es => by
      rw [pieces]
      exact ((laid_entryPieces es).append (laid_mark (by decide))).cons_mark (by decide)
  | .bytes _ => by simpa [pieces] using laid_nil
  | .date _ => by simpa [pieces] using laid_nil
  | .moment _ => by simpa [pieces] using laid_nil
  | .set _ => by simpa [pieces] using laid_nil
  | .pair _ _ => by simpa [pieces] using laid_nil
  | .knot _ _ => by simpa [pieces] using laid_nil
  | .again _ _ => by simpa [pieces] using laid_nil

theorem laid_itemPieces : ∀ xs : List Value, Laid (itemPieces xs)
  | [] => by
      rw [itemPieces]
      exact laid_nil
  | [x] => by
      rw [itemPieces]
      exact laid_pieces x
  | x :: y :: r => by
      rw [itemPieces]
      exact (laid_pieces x).append ((laid_itemPieces (y :: r)).cons_mark (by decide))

theorem laid_entryPieces : ∀ es : List (Value × Value), Laid (entryPieces es)
  | [] => by
      rw [entryPieces]
      exact laid_nil
  | [(k, v)] => by
      rw [entryPieces]
      exact (laid_pieces v).key
  | (k, v) :: e :: r => by
      rw [entryPieces]
      exact (laid_pieces v).key.append ((laid_entryPieces (e :: r)).cons_mark (by decide))

end

end Scaffold.Json
