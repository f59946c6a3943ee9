import Scaffold.Json.Writer
import Scaffold.Text.Basic

/-!
# `Scaffold.Proofs.Json.Numerals` — the characters of written numbers

Whatever a number is and however it is laid out, it is written with letters, digits, signs and points
(`isNumeral_intText`, `isNumeral_floatText`). So a number never holds what has a meaning in the text
around it: a quote, a parenthesis, a separator, a line break.

## Contents
- **Numerals.** `isNumeralChar`, `Numeral`, `IsNumeral`, `isNumeral_append`, `isNumeral_ofList`.
- **Digits.** `numeral_toDigits`, `isNumeral_intText`.
- **Floating point.** `isNumeral_shortestText`.
- **Written numbers.** `numeral_hex4`, `isNumeral_floatText`, `integerText_eq_ok`.
-/

namespace Scaffold.Decimal

open Text (isAlnum)

/-! ## Numerals -/

/-- A character that numbers are written with. -/
def isNumeralChar (c : Char) : Bool := isAlnum c || c = '+' || c = '-' || c = '.'

/-- Characters that numbers are written with. -/
def Numeral (cs : List Char) : Prop := ∀ c ∈ cs, isNumeralChar c = true

instance (cs : List Char) : Decidable (Numeral cs) :=
  List.decidableBAll (fun c => isNumeralChar c = true) cs

/-- A text that a number may be written as. -/
def IsNumeral (s : String) : Prop := Numeral s.toList

instance (s : String) : Decidable (IsNumeral s) := inferInstanceAs (Decidable (Numeral s.toList))

theorem Numeral.append {a b : List Char} (ha : Numeral a) (hb : Numeral b) : Numeral (a ++ b) :=
  List.forall_mem_append.mpr ⟨ha, hb⟩

theorem Numeral.subset {a b : List Char} (h : Numeral b) (hab : a ⊆ b) : Numeral a :=
  fun c hc => h c (hab hc)

theorem isNumeral_append {a b : String} : IsNumeral (a ++ b) ↔ IsNumeral a ∧ IsNumeral b := by
  unfold IsNumeral
  rw [String.toList_append]
  exact List.forall_mem_append

theorem isNumeral_ofList {cs : List Char} (h : Numeral cs) : IsNumeral (String.ofList cs) := by
  unfold IsNumeral
  rwa [String.toList_ofList]

theorem isNumeral_ite {c : Prop} [Decidable c] {a b : String} (ha : IsNumeral a)
    (hb : IsNumeral b) : IsNumeral (if c then a else b) := by
  split
  · exact ha
  · exact hb

/-! ## Digits -/

theorem numeral_toDigits {base : Nat} (h : 1 < base) (hbase : base ≤ 16) (n : Nat) :
    Numeral (Nat.toDigits base n) := by
  have hdigits : ∀ d < 16, Numeral [Nat.digitChar d] := by decide
  -- the last digit comes off the end
  induction n using Nat.strongRecOn with
  | ind n ih =>
      rw [Nat.toDigits_eq_if h]
      split
      · exact hdigits n (by omega)
      · rename_i hn
        have hlast : n % base < 16 := by
          have hmod := Nat.mod_lt n (show 0 < base by omega)
          omega
        exact (ih (n / base) (Nat.div_lt_self (by omega) h)).append (hdigits _ hlast)

theorem numeral_zeros (n : Nat) : Numeral (List.replicate n '0') := by
  intro c hc
  rw [List.eq_of_mem_replicate hc]
  decide

theorem isNumeral_digitsOf (n : Nat) : IsNumeral (digitsOf n) :=
  isNumeral_ofList (numeral_toDigits (by decide) (by decide) n)

theorem isNumeral_intText (n : Int) : IsNumeral (intText n) := by
  unfold intText
  split
  · exact isNumeral_append.mpr ⟨isNumeral_ofList (by decide), isNumeral_digitsOf _⟩
  · exact isNumeral_digitsOf _

/-! ## Floating point -/

theorem isNumeral_exponentText (width : Nat) (e : Int) : IsNumeral (exponentText width e) := by
  unfold exponentText
  refine isNumeral_append.mpr ⟨isNumeral_append.mpr ⟨?_, isNumeral_ofList (numeral_zeros _)⟩,
    isNumeral_digitsOf _⟩
  exact isNumeral_ite (isNumeral_ofList (by decide)) (isNumeral_ofList (by decide))

theorem isNumeral_positional {ds : String} (h : IsNumeral ds) (point : Int) :
    IsNumeral (positional ds point).1 ∧ IsNumeral (positional ds point).2 := by
  unfold positional
  split
  · exact ⟨isNumeral_ofList (by decide), isNumeral_ofList ((numeral_zeros _).append h)⟩
  · exact ⟨isNumeral_ofList ((h.subset (List.take_subset _ _)).append (numeral_zeros _)),
      isNumeral_ofList (h.subset (List.drop_subset _ _))⟩

theorem Layout.isNumeral_text (l : Layout) (digits : Nat) (k : Int) :
    IsNumeral (l.text digits k) := by
  have hdigits := isNumeral_digitsOf digits
  unfold Layout.text
  simp only
  split
  · obtain ⟨hwhole, hfrac⟩ := isNumeral_positional hdigits ((digitsOf digits).length + k)
    refine isNumeral_append.mpr ⟨isNumeral_append.mpr ⟨hwhole, isNumeral_ofList (by decide)⟩, ?_⟩
    exact isNumeral_ite (isNumeral_ofList (by decide)) hfrac
  · have hfirst : IsNumeral (String.ofList ((digitsOf digits).toList.take 1)) :=
      isNumeral_ofList (hdigits.subset (List.take_subset _ _))
    have hmore : IsNumeral (String.ofList ((digitsOf digits).toList.drop 1)) :=
      isNumeral_ofList (hdigits.subset (List.drop_subset _ _))
    refine isNumeral_append.mpr ⟨isNumeral_append.mpr ⟨isNumeral_append.mpr ⟨hfirst, ?_⟩,
      isNumeral_ofList (by decide)⟩, isNumeral_exponentText _ _⟩
    exact isNumeral_ite (isNumeral_ofList (by decide))
      (isNumeral_append.mpr ⟨isNumeral_ofList (by decide), hmore⟩)

theorem isNumeral_shortestText (x : Binary64) : IsNumeral (shortestText x) := by
  unfold shortestText
  split
  · exact isNumeral_ofList (by decide)
  · exact isNumeral_ite (isNumeral_ofList (by decide)) (isNumeral_ofList (by decide))
  · refine isNumeral_append.mpr ⟨?_, ?_⟩
    · exact isNumeral_ite (isNumeral_ofList (by decide)) (isNumeral_ofList (by decide))
    · split
      · exact isNumeral_ofList (by decide)
      · exact Layout.standard.isNumeral_text _ _

end Scaffold.Decimal

/-! ## Written numbers -/

namespace Scaffold.Json

open Decimal

theorem numeral_hex4 (n : Nat) : Numeral (hex4 n) :=
  (numeral_zeros _).append (numeral_toDigits (by decide) (by decide) n)

theorem isNumeral_floatText (x : Binary64) : IsNumeral (floatText x) := by
  unfold floatText
  split
  · exact isNumeral_ofList (by decide)
  · exact isNumeral_ite (isNumeral_ofList (by decide)) (isNumeral_ofList (by decide))
  · exact isNumeral_shortestText x

theorem integerText_eq_ok {n : Int} {s : String} (h : integerText n = .ok s) : s = intText n := by
  unfold integerText at h
  split at h
  · exact nomatch h
  · exact (Except.ok.inj h).symm

end Scaffold.Json
