import Scaffold.Proofs.Json.Writer
import Scaffold.Value.Display

/-!
# `Scaffold.Proofs.Display` — what messages can show

What keeps a plain value from being shown is what keeps it from being written: a long integer, or
collections that stand too deep inside each other (`hindered_of_unshowable?`).

## Contents
- **Values.** `hindered_of_unshowableIn`, `hindered_of_unshowableItem`, `hindered_of_unshowableEntry`,
  `hindered_of_unshowable?`.
-/

namespace Scaffold.Value

open Json (Hindered Unwritable)

variable {around : List Nat}

mutual

/-- **Showing what is plain fails for a long integer only, or for what stands too deep.** The value itself
    takes up room as well. -/
theorem hindered_of_unshowableIn : ∀ (v : Value) {room : Nat}, v.plain = true →
    ∀ cause, unshowableIn around room v = some cause → Hindered room (v.depth + 1) v.holdsLong cause
  | v, 0 => fun _ cause h => by
      rw [unshowableIn] at h
      cases h
      exact .deep v.depth.succ_pos
  | .null, _ + 1 => fun _ _ h => nomatch h
  | .bool _, _ + 1 => fun _ _ h => nomatch h
  | .int n, room + 1 => fun _ cause h => by
      rw [unshowableIn] at h
      rw [holdsLong]
      cases hlong : Decimal.isLong n with
      | true =>
          rw [if_pos hlong] at h
          cases h
          exact .long rfl
      | false =>
          rw [if_neg (by rw [hlong]; exact Bool.false_ne_true)] at h
          exact nomatch h
  | .float _, _ + 1 => fun _ _ h => nomatch h
  | .text _, _ + 1 => fun _ _ h => nomatch h
  | .list xs, room + 1 => fun hplain cause h => by
      rw [plain] at hplain
      rw [unshowableIn] at h
      rw [depth, holdsLong]
      exact (hindered_of_unshowableItem xs hplain cause h).succ
  | .map es, room + 1 => fun hplain cause h => by
      rw [plain] at hplain
      rw [unshowableIn] at h
      rw [depth, holdsLong]
      exact (hindered_of_unshowableEntry es hplain cause h).succ
  | .bytes _, _ + 1 => fun hplain => absurd hplain (by simp [plain])
  | .date _, _ + 1 => fun hplain => absurd hplain (by simp [plain])
  | .moment _, _ + 1 => fun hplain => absurd hplain (by simp [plain])
  | .set _, _ + 1 => fun hplain => absurd hplain (by simp [plain])
  | .pair _ _, _ + 1 => fun hplain => absurd hplain (by simp [plain])
  | .knot _ _, _ + 1 => fun hplain => absurd hplain (by simp [plain])
  | .again _ _, _ + 1 => fun hplain => absurd hplain (by simp [plain])

theorem hindered_of_unshowableItem : ∀ (xs : List Value) {room : Nat}, plainList xs = true →
    ∀ cause, unshowableItem around room xs = some cause →
      Hindered room (depthOfList xs + 1) (holdsLongList xs) cause
  | [] => fun _ _ h => nomatch h
  | x :: xs => fun hplain cause h => by
      rw [plainList, Bool.and_eq_true] at hplain
      rw [unshowableItem, Option.or_eq_some_iff] at h
      rw [depthOfList, holdsLongList]
      rcases h with h | ⟨-, h⟩
      · exact (hindered_of_unshowableIn x hplain.1 cause h).whole
          (Nat.succ_le_succ (Nat.le_max_left _ _)) fun hlong => Bool.or_eq_true_iff.mpr (.inl hlong)
      · exact (hindered_of_unshowableItem xs hplain.2 cause h).whole
          (Nat.succ_le_succ (Nat.le_max_right _ _)) fun hlong => Bool.or_eq_true_iff.mpr (.inr hlong)

theorem hindered_of_unshowableEntry : ∀ (es : List (Value × Value)) {room : Nat},
    plainEntries es = true → ∀ cause, unshowableEntry around room es = some cause →
      Hindered room (depthOfEntries es + 1) (holdsLongEntries es) cause
  | [] => fun _ _ h => nomatch h
  | (k, v) :: es => fun hplain cause h => by
      obtain ⟨⟨s, rfl⟩, hv, hes⟩ := Json.plainEntries_cons hplain
      rw [unshowableEntry, Option.or_eq_some_iff, Option.or_eq_some_iff] at h
      rw [depthOfEntries, holdsLongEntries]
      rcases h with h | ⟨-, h | ⟨-, h⟩⟩
      · exact (hindered_of_unshowableIn (.text s) rfl cause h).whole (Nat.succ_le_succ (Nat.zero_le _))
          fun hlong => nomatch hlong
      · exact (hindered_of_unshowableIn v hv cause h).whole (Nat.succ_le_succ (Nat.le_max_left _ _))
          fun hlong => by rw [hlong]; simp
      · exact (hindered_of_unshowableEntry es hes cause h).whole
          (Nat.succ_le_succ (Nat.le_max_right _ _)) fun hlong => Bool.or_eq_true_iff.mpr (.inr hlong)

end

theorem hindered_of_unshowable? {v : Value} {cause : Unwritable} (hplain : v.plain = true)
    (h : v.unshowable? = some cause) : Hindered showLimit (v.depth + 1) v.holdsLong cause :=
  hindered_of_unshowableIn v hplain cause h

end Scaffold.Value
