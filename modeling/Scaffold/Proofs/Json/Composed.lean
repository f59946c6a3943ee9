import Scaffold.Proofs.Json.Numerals
import Scaffold.Proofs.Json.Writer
import Scaffold.Proofs.Results
import Scaffold.Proofs.Schema.Texts

/-!
# `Scaffold.Proofs.Json.Composed` — what holds of written values

A value is written from words, numbers and quoted texts, with marks between them and around them. What
holds of these, and of whatever is put together from what it holds of, holds of every written value
(`Composed.writeChars`). So a client says what it needs of texts and marks, and follows no recursion.

## Contents
- **Pieces.** `Composed`, `Composed.word`, `Composed.keyText`.
- **Values.** `Composed.writeChars`, `Composed.writeItems`, `Composed.writeEntries`.
-/

namespace Scaffold.Json

variable {st : Style} {T : String → Prop} {P : List Char → Prop}

/-! ## Pieces -/

/-- `P` holds of the pieces that values are written with, those that `T` holds of as their texts, and of
    what is put together from them. -/
structure Composed (st : Style) (T : String → Prop) (P : List Char → Prop) : Prop where
  nil : P []
  append {a b : List Char} (ha : P a) (hb : P b) : P (a ++ b)
  listed {cs : List Char} (h : P cs) : P ('[' :: cs ++ [']'])
  mapped {cs : List Char} (h : P cs) : P ('\x7b' :: cs ++ ['\x7d'])
  comma : P st.comma.toList
  colon : P st.colon.toList
  numeral {cs : List Char} (h : Decimal.Numeral cs) : P cs
  word : ∀ w ∈ ["null", "true", "false"], P w.toList
  quoted {s : String} (h : T s) : P (writeString st.ascii s)
  /-- What is written without quotes may be a key as well. -/
  named {s : String} (h : P s.toList) : T s

namespace Composed

theorem bool (h : Composed st T P) (b : Bool) : P (if b then "true" else "false" : String).toList := by
  cases b
  · exact h.word "false" (by decide)
  · exact h.word "true" (by decide)

theorem integerText (h : Composed st T P) {n : Int} {s : String} (hs : integerText n = .ok s) :
    P s.toList := by
  rw [integerText_eq_ok hs]
  exact h.numeral (Decimal.isNumeral_intText n)

theorem floatText (h : Composed st T P) (x : Decimal.Binary64) : P (floatText x).toList :=
  h.numeral (isNumeral_floatText x)

/-- A key is written as the text that it is, or as what it would be without quotes. -/
theorem keyText (h : Composed st T P) {k : Value} (hk : ∀ s ∈ k.texts, T s) {s : String}
    (hs : keyText k = .ok s) : T s := by
  unfold Json.keyText at hs
  split at hs
  · cases hs
    exact hk s List.mem_cons_self
  · cases hs
    exact h.named (h.word "null" (by decide))
  · cases hs
    exact h.named (h.bool _)
  · exact h.named (h.integerText hs)
  · cases hs
    exact h.named (h.floatText _)
  · cases hs

/-! ## Values -/

mutual

/-- **What holds of all pieces holds of a written value**, if its texts are such pieces. -/
theorem writeChars (h : Composed st T P) :
    ∀ v : Value, (∀ s ∈ v.texts, T s) → ∀ {room : Nat} {cs : List Char},
      writeChars st room v = .ok cs → P cs
  | .null => fun _ _ _ hcs => by
      rw [Json.writeChars, Except.ok.injEq] at hcs
      exact hcs ▸ h.word "null" (by decide)
  | .bool b => fun _ _ _ hcs => by
      rw [Json.writeChars, Except.ok.injEq] at hcs
      have hword := h.bool b
      cases b <;> exact hcs ▸ hword
  | .int n => fun _ _ _ hcs => by
      rw [Json.writeChars] at hcs
      obtain ⟨s, hs, rfl⟩ := Results.map_eq_ok.mp hcs
      exact h.integerText hs
  | .float x => fun _ _ _ hcs => by
      rw [Json.writeChars, Except.ok.injEq] at hcs
      exact hcs ▸ h.floatText x
  | .text s => fun hv _ _ hcs => by
      rw [Json.writeChars, Except.ok.injEq] at hcs
      exact hcs ▸ h.quoted (hv s List.mem_cons_self)
  | .list xs => fun hv _ _ hcs => by
      rw [Json.writeChars] at hcs
      obtain ⟨n, -, hcs⟩ := inside_eq_ok.mp hcs
      obtain ⟨cs, hitems, rfl⟩ := Results.map_eq_ok.mp hcs
      exact h.listed (h.writeItems xs hv hitems)
  | .map es => fun hv _ _ hcs => by
      rw [Json.writeChars] at hcs
      obtain ⟨n, -, hcs⟩ := inside_eq_ok.mp hcs
      obtain ⟨cs, hentries, rfl⟩ := Results.map_eq_ok.mp hcs
      exact h.mapped (h.writeEntries es hv hentries)
  | .pair a b => fun hv _ _ hcs => by
      rw [Json.writeChars] at hcs
      obtain ⟨n, -, hcs⟩ := inside_eq_ok.mp hcs
      obtain ⟨x, hx, hcs⟩ := Results.bind_eq_ok.mp hcs
      obtain ⟨y, hy, hcs⟩ := Results.bind_eq_ok.mp hcs
      cases hcs
      obtain ⟨ha, hb⟩ := List.forall_mem_append.mp hv
      have hfirst := h.writeChars a ha hx
      have hsecond := h.writeChars b hb hy
      exact h.listed (h.append (h.append hfirst h.comma) hsecond)
  | .knot _ v => fun hv _ _ hcs => by
      rw [Json.writeChars] at hcs
      exact h.writeChars v hv hcs
  | .again _ _ => fun _ _ _ hcs => by
      rw [Json.writeChars] at hcs
      obtain ⟨n, -, hcs⟩ := inside_eq_ok.mp hcs
      exact nomatch hcs
  | .bytes _ => fun _ _ _ hcs => absurd hcs (by simp [Json.writeChars])
  | .date _ => fun _ _ _ hcs => absurd hcs (by simp [Json.writeChars])
  | .moment _ => fun _ _ _ hcs => absurd hcs (by simp [Json.writeChars])
  | .set _ => fun _ _ _ hcs => absurd hcs (by simp [Json.writeChars])

theorem writeItems (h : Composed st T P) :
    ∀ xs : List Value, (∀ s ∈ Value.textsOfList xs, T s) → ∀ {room : Nat} {cs : List Char},
      writeItems st room xs = .ok cs → P cs
  | [] => fun _ _ _ hcs => by
      rw [Json.writeItems, Except.ok.injEq] at hcs
      exact hcs ▸ h.nil
  | [x] => fun hxs _ _ hcs => by
      rw [Json.writeItems] at hcs
      exact h.writeChars x (List.forall_mem_append.mp hxs).1 hcs
  | x :: y :: r => fun hxs _ _ hcs => by
      rw [Json.writeItems] at hcs
      obtain ⟨a, ha, hcs⟩ := Results.bind_eq_ok.mp hcs
      obtain ⟨b, hb, hcs⟩ := Results.bind_eq_ok.mp hcs
      cases hcs
      obtain ⟨hx, hr⟩ := List.forall_mem_append.mp hxs
      have hitem := h.writeChars x hx ha
      have hrest := h.writeItems (y :: r) hr hb
      exact h.append (h.append hitem h.comma) hrest

theorem writeEntries (h : Composed st T P) :
    ∀ es : List (Value × Value), (∀ s ∈ Value.textsOfEntries es, T s) → ∀ {room : Nat} {cs : List Char},
      writeEntries st room es = .ok cs → P cs
  | [] => fun _ _ _ hcs => by
      rw [Json.writeEntries, Except.ok.injEq] at hcs
      exact hcs ▸ h.nil
  | [(k, v)] => fun hes _ _ hcs => by
      rw [Json.writeEntries] at hcs
      obtain ⟨key, hkey, hcs⟩ := Results.bind_eq_ok.mp hcs
      obtain ⟨a, ha, hcs⟩ := Results.bind_eq_ok.mp hcs
      cases hcs
      obtain ⟨hk, hv⟩ := List.forall_mem_append.mp (List.forall_mem_append.mp hes).1
      have hname := h.quoted (h.keyText hk hkey)
      have hvalue := h.writeChars v hv ha
      exact h.append (h.append hname h.colon) hvalue
  | (k, v) :: e :: r => fun hes _ _ hcs => by
      rw [Json.writeEntries] at hcs
      obtain ⟨key, hkey, hcs⟩ := Results.bind_eq_ok.mp hcs
      obtain ⟨a, ha, hcs⟩ := Results.bind_eq_ok.mp hcs
      obtain ⟨b, hb, hcs⟩ := Results.bind_eq_ok.mp hcs
      cases hcs
      obtain ⟨hentry, hr⟩ := List.forall_mem_append.mp hes
      obtain ⟨hk, hv⟩ := List.forall_mem_append.mp hentry
      have hname := h.quoted (h.keyText hk hkey)
      have hvalue := h.writeChars v hv ha
      have hrest := h.writeEntries (e :: r) hr hb
      exact h.append (h.append (h.append (h.append hname h.colon) hvalue) h.comma) hrest

end

end Composed

end Scaffold.Json
