import Scaffold.Naming.Literal
import Scaffold.Proofs.Json.Composed
import Scaffold.Proofs.Text.Nesting

/-!
# `Scaffold.Proofs.Json.Nesting` — the brackets of written values

A text is written with its own brackets and no others (`brackets_writeString`), and a number without
any. So a value whose texts are nested is written as a nested text (`composed_nested`). Its literal
lacks the quotes of keys, which are no brackets, and the outer braces, which are a pair: the literal of
a mapping is nested as well (`isNested_literal`).

## Contents
- **Numbers.** `nested_of_numeral`.
- **Texts.** `bears_escaped`, `brackets_writeString`, `nested_writeString`.
- **Values.** `composed_nested`.
- **Literals.** `brackets_unquoteKeys`, `isNested_literal`.
-/

namespace Scaffold

open Text (Bears IsNested Nested brackets brackets_append brackets_eq_nil isBracket isBracket_eq_false
  isNested_ofList nested_congr nested_of_plain)

/-! ## Numbers -/

theorem plain_of_numeral {cs : List Char} (h : Decimal.Numeral cs) :
    ∀ c ∈ cs, isBracket c = false :=
  fun c hc => isBracket_eq_false (by decide) (h c hc)

theorem nested_of_numeral {cs : List Char} (h : Decimal.Numeral cs) : Nested cs :=
  nested_of_plain (plain_of_numeral h)

/-! ## Texts -/

namespace Json

/-- **A character stands in a written text with its own bracket**, if it is one, and with no other. -/
theorem bears_escaped (ascii : Bool) (c : Char) : Bears c (escaped ascii c) := by
  have hcode : ∀ n, brackets ('\\' :: 'u' :: hex4 n) = [] := fun n =>
    brackets_eq_nil (List.forall_mem_cons.mpr
      ⟨rfl, List.forall_mem_cons.mpr ⟨rfl, plain_of_numeral (numeral_hex4 n)⟩⟩)
  -- what is escaped by its number lies below or above all brackets
  have hlow : c.toNat < 0x20 → brackets [c] = [] := fun h =>
    brackets_eq_nil (List.forall_mem_singleton.mpr
      (isBracket_eq_false (p := fun c => c.toNat < 0x20) (by decide) (decide_eq_true h)))
  have hhigh : 0x7f ≤ c.toNat → brackets [c] = [] := fun h =>
    brackets_eq_nil (List.forall_mem_singleton.mpr
      (isBracket_eq_false (p := fun c => 0x7f ≤ c.toNat) (by decide) (decide_eq_true h)))
  -- one decision after another: only the last one leaves the character as it is
  unfold escaped
  refine iteInduction (fun h => by rw [h]; rfl) fun _ => ?_
  refine iteInduction (fun h => by rw [h]; rfl) fun _ => ?_
  refine iteInduction (fun h => by rw [h]; rfl) fun _ => ?_
  refine iteInduction (fun h => by rw [h]; rfl) fun _ => ?_
  refine iteInduction (fun h => by rw [h]; rfl) fun _ => ?_
  refine iteInduction (fun h => by rw [h]; rfl) fun _ => ?_
  refine iteInduction (fun h => by rw [h]; rfl) fun _ => ?_
  refine iteInduction (fun h => (hcode _).trans (hlow h).symm) fun _ => ?_
  refine iteInduction (fun h => ?_) fun _ => rfl
  rw [Bool.and_eq_true, decide_eq_true_eq] at h
  refine iteInduction (fun _ => (hcode _).trans (hhigh h.2).symm) fun _ => ?_
  refine (brackets_append _ _).trans ?_
  rw [hcode, hcode, hhigh h.2]
  rfl

theorem brackets_writeString (ascii : Bool) (s : String) :
    brackets (writeString ascii s) = brackets s.toList := by
  unfold writeString
  have hquote : brackets ['\x22'] = [] := rfl
  rw [brackets_append, hquote, List.append_nil]
  exact Text.brackets_flatMap (bears_escaped ascii) s.toList

theorem nested_writeString (ascii : Bool) {s : String} (h : IsNested s) :
    Nested (writeString ascii s) := (nested_congr (brackets_writeString ascii s)).mpr h

/-! ## Values -/

theorem nested_between {o c : Char} (h : Text.closer? o = some c) {cs : List Char}
    (hcs : Nested cs) : Nested (o :: cs ++ [c]) := .group h hcs .nil

/-- Nested pieces are put together to a nested text. A text is one of them if it is nested itself. -/
theorem composed_nested {st : Style} (hcomma : IsNested st.comma) (hcolon : IsNested st.colon) :
    Composed st IsNested Nested where
  nil := .nil
  append := Nested.append
  listed := nested_between rfl
  mapped := nested_between rfl
  comma := hcomma
  colon := hcolon
  numeral := nested_of_numeral
  word := by decide
  quoted := nested_writeString st.ascii
  named := id

end Json

/-! ## Literals -/

namespace Naming

/-- Only quotes are left out, and quotes are no brackets. -/
theorem brackets_unquoteKeys (inKey : Bool) (cs : List Char) :
    brackets (unquoteKeys inKey cs) = brackets cs := by
  have hcons : ∀ (c : Char) {a b : List Char}, brackets a = brackets b →
      brackets (c :: a) = brackets (c :: b) := fun c _ _ h =>
    (brackets_append [c] _).trans ((congrArg (brackets [c] ++ ·) h).trans (brackets_append [c] _).symm)
  fun_induction unquoteKeys inKey cs with
  | case1 => rfl
  | case2 r ih => exact ih
  | case3 c r hc ih => exact hcons c ih
  | case4 c r hc ih =>
      rw [Bool.and_eq_true, decide_eq_true_eq] at hc
      exact hc.1 ▸ ih
  | case5 c r hc ih => exact hcons c ih

/-- A brace at the end is no quote, and stays. -/
theorem exists_unquoteKeys_brace (inKey : Bool) (cs : List Char) :
    ∃ ds, unquoteKeys inKey (cs ++ ['\x7d']) = ds ++ ['\x7d'] := by
  have hkept : ∀ (c : Char) {a : List Char}, (∃ ds, a = ds ++ ['\x7d']) →
      ∃ ds, c :: a = ds ++ ['\x7d'] := fun c _ ⟨ds, h⟩ => ⟨c :: ds, congrArg (c :: ·) h⟩
  induction cs generalizing inKey with
  | nil => cases inKey <;> exact ⟨[], rfl⟩
  | cons c cs ih =>
      rw [List.cons_append]
      cases inKey with
      | true =>
          rw [unquoteKeys]
          split
          · exact ih false
          · exact hkept c (ih true)
      | false =>
          rw [unquoteKeys]
          split
          · exact ih true
          · exact hkept c (ih false)

/-- **The literal of a mapping is nested**, if the texts that it holds are. -/
theorem isNested_literal {es : Entries} (hes : ∀ s ∈ (Value.map es).texts, IsNested s) {s : String}
    (h : literal (.map es) = .ok s) : IsNested s := by
  obtain ⟨cs, hcs, rfl⟩ := Results.map_eq_ok.mp h
  rw [Json.writeChars] at hcs
  obtain ⟨n, -, hcs⟩ := Json.inside_eq_ok.mp hcs
  obtain ⟨body, hbody, rfl⟩ := Results.map_eq_ok.mp hcs
  have hcomma : IsNested "," := isNested_ofList (by decide)
  have hcolon : IsNested ":" := isNested_ofList (by decide)
  have hnested : Nested body := (Json.composed_nested hcomma hcolon).writeEntries es hes hbody
  -- the braces stay where they are, and come off together
  obtain ⟨ds, hds⟩ := exists_unquoteKeys_brace false body
  have hinner : inner (unquoteKeys false ('\x7b' :: body ++ ['\x7d'])) = ds := by
    have hopen : unquoteKeys false ('\x7b' :: body ++ ['\x7d']) =
        '\x7b' :: unquoteKeys false (body ++ ['\x7d']) := rfl
    rw [hopen, hds]
    exact List.dropLast_concat
  have hbrackets : brackets ds = brackets body := by
    have hboth := brackets_unquoteKeys false (body ++ ['\x7d'])
    rw [hds, brackets_append, brackets_append] at hboth
    exact List.append_cancel_right hboth
  rw [hinner]
  exact isNested_ofList ((nested_congr hbrackets).mpr hnested)

end Naming

end Scaffold
