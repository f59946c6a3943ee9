import Scaffold.Json.Writer
import Scaffold.Proofs.Results

/-!
# `Scaffold.Proofs.Json.Writer` — what can be written

Writing fails for what no JSON document holds. Of plain values it fails for those only that hold a long
integer, or in which more collections stand inside each other than there is room for
(`hindered_of_writeChars`). So whatever a JSON document can hold is written
(`IsJson.exists_writeChars`).

## Contents
- **Values.** `IsTree`, `IsJson`: how deep collections may stand in a value is said here, and nowhere
  else.
- **Collections.** `inside_eq_ok`, `inside_eq_error`.
- **Writing.** `Hindered`, `hindered_of_writeChars`, `hindered_of_writeItems`,
  `hindered_of_writeEntries`, `IsJson.exists_writeChars`.
-/

namespace Scaffold.Json

/-! ## Values -/

/-- A plain value in which at most `room` collections stand inside each other. -/
structure IsTree (room : Nat) (v : Value) : Prop where
  plain : v.plain = true
  shallow : v.depth ≤ room

/-- A value that a JSON document can hold where `room` collections may be open at a time: a tree, without
    integers that are refused for their length. -/
structure IsJson (room : Nat) (v : Value) : Prop extends IsTree room v where
  short : v.holdsLong = false

theorem IsTree.mono {room room' : Nat} {v : Value} (h : IsTree room v) (hroom : room ≤ room') :
    IsTree room' v := ⟨h.plain, Nat.le_trans h.shallow hroom⟩

theorem IsJson.mono {room room' : Nat} {v : Value} (h : IsJson room v) (hroom : room ≤ room') :
    IsJson room' v := ⟨h.toIsTree.mono hroom, h.short⟩

theorem isTree_of_plain {v : Value} (h : v.plain = true) : IsTree v.depth v := ⟨h, Nat.le_refl _⟩

/-- The keys of plain entries are texts. -/
theorem plainEntries_cons {k v : Value} {es : List (Value × Value)}
    (h : Value.plainEntries ((k, v) :: es) = true) :
    (∃ s, k = .text s) ∧ v.plain = true ∧ Value.plainEntries es = true := by
  cases k with
  | text s =>
      rw [Value.plainEntries, Bool.and_eq_true] at h
      exact ⟨⟨s, rfl⟩, h⟩
  | _ => exact absurd h (by simp [Value.plainEntries])

theorem holdsLongEntries_cons {k v : Value} {es : List (Value × Value)}
    (h : Value.holdsLongEntries ((k, v) :: es) = false) :
    v.holdsLong = false ∧ Value.holdsLongEntries es = false := by
  rw [Value.holdsLongEntries, Bool.or_eq_false_iff, Bool.or_eq_false_iff] at h
  exact ⟨h.1.2, h.2⟩

theorem Unwritable.label_cases (cause : Unwritable) :
    cause.label = "TypeError" ∨ cause.label = "ValueError" ∨ cause.label = "RecursionError" := by
  cases cause with
  | value kind => exact .inl rfl
  | key kind => exact .inl rfl
  | longInteger => exact .inr (.inl rfl)
  | circular => exact .inr (.inl rfl)
  | tooDeep task => exact .inr (.inr rfl)

/-! ## Collections -/

section Inside

variable {α : Type} {room : Nat} {go : Nat → Except Unwritable α}

/-- A collection is gone through where there is room for one more. -/
theorem inside_eq_ok {a : α} : inside room go = .ok a ↔ ∃ n, room = n + 1 ∧ go n = .ok a := by
  cases room with
  | zero => simp [inside]
  | succ n => simp [inside]

theorem inside_eq_error {cause : Unwritable} : inside room go = .error cause ↔
    (room = 0 ∧ cause = .tooDeep "encoding a JSON object") ∨
      ∃ n, room = n + 1 ∧ go n = .error cause := by
  cases room with
  | zero => simp [inside, eq_comm]
  | succ n => simp [inside]

end Inside

/-! ## Writing -/

/-- Why something plain cannot be written where there is `room`: it holds a long integer, or its `depth`
    is too great. -/
inductive Hindered (room depth : Nat) (long : Bool) : Unwritable → Prop
  | long (h : long = true) : Hindered room depth long .longInteger
  | deep {task : String} (h : room < depth) : Hindered room depth long (.tooDeep task)

/-- What keeps a part from being written keeps the whole. -/
theorem Hindered.whole {room depth depth' : Nat} {long long' : Bool} {cause : Unwritable}
    (h : Hindered room depth long cause) (hdepth : depth ≤ depth') (hlong : long = true → long' = true) :
    Hindered room depth' long' cause := by
  cases h with
  | long h => exact .long (hlong h)
  | deep h => exact .deep (Nat.lt_of_lt_of_le h hdepth)

/-- A collection around something needs more room. -/
theorem Hindered.succ {room depth : Nat} {long : Bool} {cause : Unwritable}
    (h : Hindered room depth long cause) : Hindered (room + 1) (depth + 1) long cause := by
  cases h with
  | long h => exact .long h
  | deep h => exact .deep (Nat.succ_lt_succ h)

/-- A collection is written as what it holds is written with less room, or there is none at all. -/
theorem Hindered.around {room depth : Nat} {long : Bool} {α : Type} {go : Nat → Except Unwritable α}
    {cause : Unwritable} (h : inside room go = .error cause)
    (hgo : ∀ n, go n = .error cause → Hindered n depth long cause) :
    Hindered room (depth + 1) long cause := by
  obtain ⟨rfl, rfl⟩ | ⟨n, rfl, h⟩ := inside_eq_error.mp h
  · exact .deep depth.succ_pos
  · exact (hgo n h).succ

mutual

/-- **Writing what is plain fails for a long integer only, or for collections that stand too deep inside
    each other.** -/
theorem hindered_of_writeChars (st : Style) :
    ∀ (v : Value) (room : Nat), v.plain = true → ∀ cause, writeChars st room v = .error cause →
      Hindered room v.depth v.holdsLong cause
  | .null => fun _ _ _ h => by
      rw [writeChars] at h
      exact nomatch h
  | .bool _ => fun _ _ _ h => by
      rw [writeChars] at h
      exact nomatch h
  | .int n => fun _ _ cause h => by
      rw [writeChars, Results.map_eq_error] at h
      unfold integerText at h
      rw [Value.holdsLong]
      cases hlong : Decimal.isLong n with
      | true =>
          rw [if_pos hlong] at h
          cases h
          exact .long rfl
      | false =>
          rw [if_neg (by rw [hlong]; exact Bool.false_ne_true)] at h
          exact nomatch h
  | .float _ => fun _ _ _ h => by
      rw [writeChars] at h
      exact nomatch h
  | .text _ => fun _ _ _ h => by
      rw [writeChars] at h
      exact nomatch h
  | .list xs => fun room hplain cause h => by
      rw [Value.plain] at hplain
      rw [writeChars] at h
      rw [Value.holdsLong, Value.depth]
      exact .around h fun n h =>
        hindered_of_writeItems st xs n hplain cause (Results.map_eq_error.mp h)
  | .map es => fun room hplain cause h => by
      rw [Value.plain] at hplain
      rw [writeChars] at h
      rw [Value.holdsLong, Value.depth]
      exact .around h fun n h =>
        hindered_of_writeEntries st es n hplain cause (Results.map_eq_error.mp h)
  | .bytes _ => fun _ hplain => absurd hplain (by simp [Value.plain])
  | .date _ => fun _ hplain => absurd hplain (by simp [Value.plain])
  | .moment _ => fun _ hplain => absurd hplain (by simp [Value.plain])
  | .set _ => fun _ hplain => absurd hplain (by simp [Value.plain])
  | .pair _ _ => fun _ hplain => absurd hplain (by simp [Value.plain])
  | .knot _ _ => fun _ hplain => absurd hplain (by simp [Value.plain])
  | .again _ _ => fun _ hplain => absurd hplain (by simp [Value.plain])

theorem hindered_of_writeItems (st : Style) :
    ∀ (xs : List Value) (room : Nat), Value.plainList xs = true → ∀ cause,
      writeItems st room xs = .error cause →
        Hindered room (Value.depthOfList xs) (Value.holdsLongList xs) cause
  | [] => fun _ _ _ h => by
      rw [writeItems] at h
      exact nomatch h
  | [x] => fun room hplain cause h => by
      rw [Value.plainList, Bool.and_eq_true] at hplain
      rw [writeItems] at h
      rw [Value.holdsLongList, Value.depthOfList]
      exact (hindered_of_writeChars st x room hplain.1 cause h).whole (Nat.le_max_left _ _)
        fun hlong => Bool.or_eq_true_iff.mpr (.inl hlong)
  | x :: y :: r => fun room hplain cause h => by
      rw [Value.plainList, Bool.and_eq_true] at hplain
      rw [writeItems] at h
      rw [Value.holdsLongList, Value.depthOfList]
      rcases Results.bind_eq_error.mp h with h | ⟨a, -, h⟩
      · exact (hindered_of_writeChars st x room hplain.1 cause h).whole (Nat.le_max_left _ _)
          fun hlong => Bool.or_eq_true_iff.mpr (.inl hlong)
      · rcases Results.bind_eq_error.mp h with h | ⟨b, -, h⟩
        · exact (hindered_of_writeItems st (y :: r) room hplain.2 cause h).whole
            (Nat.le_max_right _ _) fun hlong => Bool.or_eq_true_iff.mpr (.inr hlong)
        · exact nomatch h

theorem hindered_of_writeEntries (st : Style) :
    ∀ (es : List (Value × Value)) (room : Nat), Value.plainEntries es = true → ∀ cause,
      writeEntries st room es = .error cause →
        Hindered room (Value.depthOfEntries es) (Value.holdsLongEntries es) cause
  | [] => fun _ _ _ h => by
      rw [writeEntries] at h
      exact nomatch h
  | [(k, v)] => fun room hplain cause h => by
      obtain ⟨⟨s, rfl⟩, hv, -⟩ := plainEntries_cons hplain
      rw [writeEntries] at h
      rw [Value.holdsLongEntries, Value.depthOfEntries]
      rcases Results.bind_eq_error.mp h with h | ⟨key, -, h⟩
      · exact nomatch h
      · rcases Results.bind_eq_error.mp h with h | ⟨a, -, h⟩
        · exact (hindered_of_writeChars st v room hv cause h).whole (Nat.le_max_left _ _)
            fun hlong => by rw [hlong]; simp
        · exact nomatch h
  | (k, v) :: e :: r => fun room hplain cause h => by
      obtain ⟨⟨s, rfl⟩, hv, hr⟩ := plainEntries_cons hplain
      rw [writeEntries] at h
      rw [Value.holdsLongEntries, Value.depthOfEntries]
      rcases Results.bind_eq_error.mp h with h | ⟨key, -, h⟩
      · exact nomatch h
      · rcases Results.bind_eq_error.mp h with h | ⟨a, -, h⟩
        · exact (hindered_of_writeChars st v room hv cause h).whole (Nat.le_max_left _ _)
            fun hlong => by rw [hlong]; simp
        · rcases Results.bind_eq_error.mp h with h | ⟨b, -, h⟩
          · exact (hindered_of_writeEntries st (e :: r) room hr cause h).whole
              (Nat.le_max_right _ _) fun hlong => Bool.or_eq_true_iff.mpr (.inr hlong)
          · exact nomatch h

end

/-- **What a JSON document can hold is written**, where there is room for it. -/
theorem IsJson.exists_writeChars {room : Nat} {v : Value} (h : IsJson room v) (st : Style) :
    ∃ cs, writeChars st room v = .ok cs := by
  cases hwrite : writeChars st room v with
  | ok cs => exact ⟨cs, rfl⟩
  | error cause =>
      cases hindered_of_writeChars st v room h.plain cause hwrite with
      | long hlong => exact nomatch hlong.symm.trans h.short
      | deep hdeep => exact absurd h.shallow (Nat.not_le_of_lt hdeep)

end Scaffold.Json
