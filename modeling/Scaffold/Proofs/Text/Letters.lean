import Scaffold.Text.Basic

/-!
# `Scaffold.Proofs.Text.Letters` — letters of ASCII and their case

No letter is both a capital and a small one, and changing the case of a letter leaves it the same
letter: a capital made small and a small one made a capital come back (`upperChar_lowerChar`,
`lowerChar_upperChar`).

## Contents
- **Classes.** `not_isUpper_of_isLower`, `not_isLower_of_isUpper`, `not_isUpper_of_isDigit`,
  `not_isBlank_of_isAlnum`, `isSmall`.
- **Case.** `toNat_lowerChar`, `toNat_upperChar`, `isSmall_lowerChar`, `isUpper_upperChar`,
  `lowerChar_upperChar`, `upperChar_lowerChar`, `isDigit_lowerChar`.
-/

namespace Scaffold.Text

variable {c : Char}

/-! ## Classes -/

theorem not_isUpper_of_isLower (h : isLower c = true) : isUpper c = false := by
  simp only [isLower, isUpper, Bool.and_eq_true, decide_eq_true_eq] at h ⊢
  rw [Bool.and_eq_false_iff, decide_eq_false_iff_not, decide_eq_false_iff_not]
  omega

theorem not_isUpper_of_isDigit (h : isDigit c = true) : isUpper c = false := by
  simp only [isDigit, isUpper, Bool.and_eq_true, decide_eq_true_eq] at h ⊢
  rw [Bool.and_eq_false_iff, decide_eq_false_iff_not, decide_eq_false_iff_not]
  omega

theorem not_isLower_of_isDigit (h : isDigit c = true) : isLower c = false := by
  simp only [isDigit, isLower, Bool.and_eq_true, decide_eq_true_eq] at h ⊢
  rw [Bool.and_eq_false_iff, decide_eq_false_iff_not, decide_eq_false_iff_not]
  omega

theorem not_isLower_of_isUpper (h : isUpper c = true) : isLower c = false := by
  rw [← Bool.not_eq_true]
  intro hlower
  rw [not_isUpper_of_isLower hlower] at h
  exact Bool.false_ne_true h

theorem not_isDigit_of_isUpper (h : isUpper c = true) : isDigit c = false := by
  rw [← Bool.not_eq_true]
  intro hdigit
  rw [not_isUpper_of_isDigit hdigit] at h
  exact Bool.false_ne_true h

theorem isAlnum_of_isUpper (h : isUpper c = true) : isAlnum c = true := by
  simp [isAlnum, h]

theorem isAlnum_of_isLower (h : isLower c = true) : isAlnum c = true := by
  simp [isAlnum, h]

theorem isAlnum_of_isDigit (h : isDigit c = true) : isAlnum c = true := by
  simp [isAlnum, h]

theorem not_isBlank_of_isAlnum (h : isAlnum c = true) : isBlank c = false := by
  simp only [isAlnum, isDigit, isUpper, isLower, Bool.or_eq_true, Bool.and_eq_true,
    decide_eq_true_eq] at h
  rw [← Bool.not_eq_true]
  intro hblank
  simp only [isBlank, Bool.or_eq_true, Bool.and_eq_true, decide_eq_true_eq, beq_iff_eq] at hblank
  omega

/-- A small letter or a digit. -/
def isSmall (c : Char) : Bool := isLower c || isDigit c

theorem isAlnum_of_isSmall (h : isSmall c = true) : isAlnum c = true := by
  rcases Bool.or_eq_true_iff.mp h with h | h
  · exact isAlnum_of_isLower h
  · exact isAlnum_of_isDigit h

theorem not_isUpper_of_isSmall (h : isSmall c = true) : isUpper c = false := by
  rcases Bool.or_eq_true_iff.mp h with h | h
  · exact not_isUpper_of_isLower h
  · exact not_isUpper_of_isDigit h

/-- A letter or digit that is no capital is small. -/
theorem isSmall_of_not_isUpper (h : isAlnum c = true) (hc : isUpper c = false) :
    isSmall c = true := by
  simp only [isAlnum, hc, Bool.or_false, Bool.or_eq_true] at h
  simp only [isSmall, Bool.or_eq_true]
  exact h.symm

/-! ## Case -/

theorem toNat_ofNat {n : Nat} (h : n.isValidChar) : (Char.ofNat n).toNat = n := by
  unfold Char.ofNat
  rw [dif_pos h]
  rfl

theorem lowerChar_of_not_isUpper (h : isUpper c = false) : lowerChar c = c :=
  if_neg (by rw [h]; exact Bool.false_ne_true)

theorem upperChar_of_not_isLower (h : isLower c = false) : upperChar c = c :=
  if_neg (by rw [h]; exact Bool.false_ne_true)

theorem toNat_lowerChar (h : isUpper c = true) : (lowerChar c).toNat = c.toNat + 32 := by
  rw [lowerChar, if_pos h]
  simp only [isUpper, Bool.and_eq_true, decide_eq_true_eq] at h
  exact toNat_ofNat (Or.inl (by omega))

theorem toNat_upperChar (h : isLower c = true) : (upperChar c).toNat = c.toNat - 32 := by
  rw [upperChar, if_pos h]
  simp only [isLower, Bool.and_eq_true, decide_eq_true_eq] at h
  exact toNat_ofNat (Or.inl (by omega))

theorem isLower_lowerChar (h : isUpper c = true) : isLower (lowerChar c) = true := by
  have hnat := toNat_lowerChar h
  simp only [isUpper, isLower, Bool.and_eq_true, decide_eq_true_eq] at h ⊢
  omega

theorem isUpper_upperChar (h : isLower c = true) : isUpper (upperChar c) = true := by
  have hnat := toNat_upperChar h
  simp only [isUpper, isLower, Bool.and_eq_true, decide_eq_true_eq] at h ⊢
  omega

theorem isSmall_lowerChar (h : isAlnum c = true) : isSmall (lowerChar c) = true := by
  by_cases hc : isUpper c = true
  · simp [isSmall, isLower_lowerChar hc]
  · have hc : isUpper c = false := Bool.eq_false_iff.mpr hc
    rw [lowerChar_of_not_isUpper hc]
    exact isSmall_of_not_isUpper h hc

theorem isAlnum_upperChar (h : isAlnum c = true) : isAlnum (upperChar c) = true := by
  by_cases hc : isLower c = true
  · exact isAlnum_of_isUpper (isUpper_upperChar hc)
  · rwa [upperChar_of_not_isLower (Bool.eq_false_iff.mpr hc)]

theorem lowerChar_lowerChar (c : Char) : lowerChar (lowerChar c) = lowerChar c := by
  by_cases hc : isUpper c = true
  · exact lowerChar_of_not_isUpper (not_isUpper_of_isLower (isLower_lowerChar hc))
  · have hsame : lowerChar c = c := lowerChar_of_not_isUpper (Bool.eq_false_iff.mpr hc)
    rw [hsame, hsame]

theorem lowerChar_upperChar (c : Char) : lowerChar (upperChar c) = lowerChar c := by
  by_cases hc : isLower c = true
  · rw [lowerChar_of_not_isUpper (not_isUpper_of_isLower hc)]
    apply Char.toNat_inj.mp
    rw [toNat_lowerChar (isUpper_upperChar hc), toNat_upperChar hc]
    simp only [isLower, Bool.and_eq_true, decide_eq_true_eq] at hc
    omega
  · rw [upperChar_of_not_isLower (Bool.eq_false_iff.mpr hc)]

theorem upperChar_lowerChar (c : Char) : upperChar (lowerChar c) = upperChar c := by
  by_cases hc : isUpper c = true
  · rw [upperChar_of_not_isLower (not_isLower_of_isUpper hc)]
    apply Char.toNat_inj.mp
    rw [toNat_upperChar (isLower_lowerChar hc), toNat_lowerChar hc]
    omega
  · rw [lowerChar_of_not_isUpper (Bool.eq_false_iff.mpr hc)]

theorem isDigit_lowerChar (c : Char) : isDigit (lowerChar c) = isDigit c := by
  by_cases hc : isUpper c = true
  · rw [not_isDigit_of_isUpper hc, ← Bool.not_eq_true]
    intro hdigit
    have hlower := isLower_lowerChar hc
    rw [not_isLower_of_isDigit hdigit] at hlower
    exact Bool.false_ne_true hlower
  · rw [lowerChar_of_not_isUpper (Bool.eq_false_iff.mpr hc)]

end Scaffold.Text
