import Scaffold.Json.Reader
import Scaffold.Proofs.Json.Writer
import Scaffold.Proofs.Results

/-!
# `Scaffold.Proofs.Json.Values` — the values that JSON documents hold

A list is what a JSON document can hold if its items are, with one collection less around them, and a
mapping if its keys are texts and its values are. So whatever is taken out of such a value, or put
together from such values, is one again. And whatever is read from a JSON text is one (`isJson_of_read`).

## Contents
- **Collections.** `plain_list`, `plain_map`, `depth_list`, `depth_map`, `isTree_list`, `isTree_map`,
  `isJson_list`, `IsEntry`, `isJson_map`, `eq_map_of_plain`, `eq_list_of_plain`, `IsJson.entries?`,
  `IsJson.listItems?`.
- **Mappings.** `IsJson.lookup`, `IsJson.put`, `isJson_ofList`.
- **Reading.** `isLong_of_digitCount`, `cases_of_readNumber?`, `ReadsJson`, `readsJson`,
  `isJson_of_read`.
-/

namespace Scaffold

namespace Json

/-! ## Collections -/

section Collections

variable {n : Nat} {xs : List Value} {es : Entries}

theorem plain_list : (Value.list xs).plain = true ↔ ∀ x ∈ xs, x.plain = true := by
  rw [Value.plain]
  induction xs with
  | nil => simp [Value.plainList]
  | cons x xs ih => rw [Value.plainList, Bool.and_eq_true, ih, List.forall_mem_cons]

theorem depth_list : (Value.list xs).depth ≤ n + 1 ↔ ∀ x ∈ xs, x.depth ≤ n := by
  rw [Value.depth, Nat.add_le_add_iff_right]
  induction xs with
  | nil => simp [Value.depthOfList]
  | cons x xs ih => rw [Value.depthOfList, Nat.max_le, ih, List.forall_mem_cons]

theorem holdsLong_list : (Value.list xs).holdsLong = false ↔ ∀ x ∈ xs, x.holdsLong = false := by
  rw [Value.holdsLong]
  induction xs with
  | nil => simp [Value.holdsLongList]
  | cons x xs ih => rw [Value.holdsLongList, Bool.or_eq_false_iff, ih, List.forall_mem_cons]

theorem plain_map :
    (Value.map es).plain = true ↔ ∀ x ∈ es, (∃ s, x.1 = .text s) ∧ x.2.plain = true := by
  rw [Value.plain]
  induction es with
  | nil => simp [Value.plainEntries]
  | cons x es ih =>
      obtain ⟨k, v⟩ := x
      rw [List.forall_mem_cons, ← ih]
      constructor
      · intro h
        obtain ⟨hk, hv, hes⟩ := plainEntries_cons h
        exact ⟨⟨hk, hv⟩, hes⟩
      · rintro ⟨⟨⟨s, hs⟩, hv⟩, hes⟩
        cases hs
        rw [Value.plainEntries, hes, Bool.and_true]
        exact hv

theorem depth_map : (Value.map es).depth ≤ n + 1 ↔ ∀ x ∈ es, x.2.depth ≤ n := by
  rw [Value.depth, Nat.add_le_add_iff_right]
  induction es with
  | nil => simp [Value.depthOfEntries]
  | cons x es ih => rw [Value.depthOfEntries, Nat.max_le, ih, List.forall_mem_cons]

theorem holdsLong_map : (Value.map es).holdsLong = false ↔
    ∀ x ∈ es, x.1.holdsLong = false ∧ x.2.holdsLong = false := by
  rw [Value.holdsLong]
  induction es with
  | nil => simp [Value.holdsLongEntries]
  | cons x es ih =>
      rw [Value.holdsLongEntries, Bool.or_eq_false_iff, Bool.or_eq_false_iff, ih,
        List.forall_mem_cons]

theorem isTree_list : IsTree (n + 1) (.list xs) ↔ ∀ x ∈ xs, IsTree n x := by
  constructor
  · exact fun h x hx => ⟨plain_list.mp h.plain x hx, depth_list.mp h.shallow x hx⟩
  · exact fun h => ⟨plain_list.mpr fun x hx => (h x hx).plain,
      depth_list.mpr fun x hx => (h x hx).shallow⟩

theorem isTree_map : IsTree (n + 1) (.map es) ↔ ∀ x ∈ es, (∃ s, x.1 = .text s) ∧ IsTree n x.2 := by
  constructor
  · intro h x hx
    obtain ⟨hkey, hplain⟩ := plain_map.mp h.plain x hx
    exact ⟨hkey, hplain, depth_map.mp h.shallow x hx⟩
  · exact fun h => ⟨plain_map.mpr fun x hx => ⟨(h x hx).1, (h x hx).2.plain⟩,
      depth_map.mpr fun x hx => (h x hx).2.shallow⟩

theorem isJson_list : IsJson (n + 1) (.list xs) ↔ ∀ x ∈ xs, IsJson n x := by
  constructor
  · exact fun h x hx => ⟨isTree_list.mp h.toIsTree x hx, holdsLong_list.mp h.short x hx⟩
  · exact fun h => ⟨isTree_list.mpr fun x hx => (h x hx).toIsTree,
      holdsLong_list.mpr fun x hx => (h x hx).short⟩

/-- An entry of a JSON document: its key is a text. -/
def IsEntry (room : Nat) (x : Value × Value) : Prop := (∃ s, x.1 = .text s) ∧ IsJson room x.2

theorem isJson_map : IsJson (n + 1) (.map es) ↔ ∀ x ∈ es, IsEntry n x := by
  constructor
  · intro h x hx
    obtain ⟨hkey, hvalue⟩ := isTree_map.mp h.toIsTree x hx
    exact ⟨hkey, hvalue, (holdsLong_map.mp h.short x hx).2⟩
  · intro h
    refine ⟨isTree_map.mpr fun x hx => ⟨(h x hx).1, (h x hx).2.toIsTree⟩,
      holdsLong_map.mpr fun x hx => ?_⟩
    obtain ⟨⟨s, hs⟩, hvalue⟩ := h x hx
    exact ⟨by rw [hs]; rfl, hvalue.short⟩

theorem isJson_map_nil : IsJson (n + 1) (.map []) :=
  isJson_map.mpr fun _ hx => absurd hx List.not_mem_nil

theorem isJson_map_cons {x : Value × Value} :
    IsJson (n + 1) (.map (x :: es)) ↔ IsEntry n x ∧ IsJson (n + 1) (.map es) := by
  rw [isJson_map, isJson_map, List.forall_mem_cons]

end Collections

/-- A value that is no knot is whole as it is. -/
theorem unfold_of_plain {v : Value} (h : v.plain = true) : v.unfold = v := by
  cases v with
  | knot l w => exact absurd h (by simp [Value.plain])
  | _ => rfl

theorem eq_map_of_plain {v : Value} (h : v.plain = true) {es : Entries}
    (hes : v.entries? = some es) : v = .map es := by
  unfold Value.entries? at hes
  rw [unfold_of_plain h] at hes
  split at hes
  · cases hes
    rfl
  · exact nomatch hes

theorem eq_list_of_plain {v : Value} (h : v.plain = true) {xs : List Value}
    (hxs : v.listItems? = some xs) : v = .list xs := by
  unfold Value.listItems? at hxs
  rw [unfold_of_plain h] at hxs
  split at hxs
  · cases hxs
    rfl
  · exact nomatch hxs

section Parts

variable {room : Nat} {v : Value}

theorem IsJson.unfold (h : IsJson room v) : v.unfold = v := unfold_of_plain h.plain

theorem IsTree.entries? (h : IsTree room v) {es : Entries} (hes : v.entries? = some es) :
    IsTree room (.map es) := eq_map_of_plain h.plain hes ▸ h

theorem IsJson.entries? (h : IsJson room v) {es : Entries} (hes : v.entries? = some es) :
    IsJson room (.map es) := eq_map_of_plain h.plain hes ▸ h

theorem IsTree.listItems? (h : IsTree room v) {xs : List Value} (hxs : v.listItems? = some xs) :
    IsTree room (.list xs) := eq_list_of_plain h.plain hxs ▸ h

theorem IsJson.listItems? (h : IsJson room v) {xs : List Value} (hxs : v.listItems? = some xs) :
    IsJson room (.list xs) := eq_list_of_plain h.plain hxs ▸ h

/-- There is room for the mapping itself. -/
theorem IsTree.exists_room {es : Entries} (h : IsTree room (.map es)) : ∃ n, room = n + 1 := by
  have hdepth := h.shallow
  rw [Value.depth] at hdepth
  exact Nat.exists_eq_add_of_le' (Nat.le_of_add_left_le hdepth)

/-- There is room for the list itself. -/
theorem IsTree.exists_room_list {xs : List Value} (h : IsTree room (.list xs)) :
    ∃ n, room = n + 1 := by
  have hdepth := h.shallow
  rw [Value.depth] at hdepth
  exact Nat.exists_eq_add_of_le' (Nat.le_of_add_left_le hdepth)

theorem IsTree.item {xs : List Value} (h : IsTree room (.list xs)) {x : Value} (hx : x ∈ xs) :
    IsTree room x := by
  obtain ⟨n, rfl⟩ := h.exists_room_list
  exact (isTree_list.mp h x hx).mono n.le_succ

theorem IsJson.item {xs : List Value} (h : IsJson room (.list xs)) {x : Value} (hx : x ∈ xs) :
    IsJson room x :=
  ⟨h.toIsTree.item hx, holdsLong_list.mp h.short x hx⟩

end Parts

/-! ## Mappings -/

theorem mem_of_get? {es : Entries} {key v : Value} (h : es.get? key = some v) :
    ∃ k, (k, v) ∈ es := by
  induction es with
  | nil => exact nomatch h
  | cons x es ih =>
      obtain ⟨k, w⟩ := x
      unfold Entries.get? at h
      split at h
      · cases h
        exact ⟨k, List.mem_cons_self⟩
      · obtain ⟨k', hk'⟩ := ih h
        exact ⟨k', List.mem_cons_of_mem _ hk'⟩

section Mappings

variable {room : Nat} {es : Entries} {key : String} {v : Value}

theorem IsTree.lookup_succ {n : Nat} (h : IsTree (n + 1) (.map es)) (hv : es.lookup key = some v) :
    IsTree n v := by
  obtain ⟨k, hk⟩ := mem_of_get? hv
  exact (isTree_map.mp h (k, v) hk).2

theorem IsJson.lookup_succ {n : Nat} (h : IsJson (n + 1) (.map es)) (hv : es.lookup key = some v) :
    IsJson n v := by
  obtain ⟨k, hk⟩ := mem_of_get? hv
  exact (isJson_map.mp h (k, v) hk).2

theorem IsTree.lookup (h : IsTree room (.map es)) (hv : es.lookup key = some v) : IsTree room v := by
  obtain ⟨n, rfl⟩ := h.exists_room
  exact (h.lookup_succ hv).mono n.le_succ

theorem IsJson.lookup (h : IsJson room (.map es)) (hv : es.lookup key = some v) : IsJson room v := by
  obtain ⟨n, rfl⟩ := h.exists_room
  exact (h.lookup_succ hv).mono n.le_succ

theorem IsJson.put {n : Nat} (h : IsJson (n + 1) (.map es)) (hv : IsJson n v) :
    IsJson (n + 1) (.map (es.put (.text key) v)) := by
  induction es with
  | nil => exact isJson_map_cons.mpr ⟨⟨⟨key, rfl⟩, hv⟩, isJson_map_nil⟩
  | cons x es ih =>
      obtain ⟨k, w⟩ := x
      obtain ⟨hx, hes⟩ := isJson_map_cons.mp h
      unfold Entries.put
      split
      · exact isJson_map_cons.mpr ⟨⟨hx.1, hv⟩, hes⟩
      · exact isJson_map_cons.mpr ⟨hx, ih hes⟩

end Mappings

theorem isJson_ofList {room : Nat} {es : Entries} (h : IsJson room (.map es)) :
    IsJson room (.map (Entries.ofList es)) := by
  obtain ⟨n, rfl⟩ := h.exists_room
  -- the entries come one by one to those that are there
  have hfold : ∀ (es acc : Entries), IsJson (n + 1) (.map acc) → IsJson (n + 1) (.map es) →
      IsJson (n + 1) (.map (es.foldl (fun acc x => Entries.put acc x.1 x.2) acc)) := by
    intro es
    induction es with
    | nil => exact fun acc hacc _ => hacc
    | cons x es ih =>
        intro acc hacc hes
        obtain ⟨⟨⟨s, hs⟩, hx⟩, hes⟩ := isJson_map_cons.mp hes
        rw [List.foldl_cons]
        refine ih _ ?_ hes
        rw [hs]
        exact hacc.put hx
  exact hfold es [] isJson_map_nil h

/-! ## Reading -/

theorem lt_pow_digitCount (n : Nat) : n < Nat.pow 10 (Decimal.digitCount n) := by
  unfold Decimal.digitCount
  -- the last digit comes off the end
  induction n using Nat.strongRecOn with
  | ind n ih =>
      rw [Nat.toDigits_eq_if (by decide)]
      split
      · rename_i hn
        exact hn
      · rename_i hn
        have hfront := ih (n / 10) (Nat.div_lt_self (by omega) (by decide))
        rw [List.length_append, List.length_singleton]
        show n < Nat.pow 10 (Nat.toDigits 10 (n / 10)).length * 10
        omega

theorem lt_pow_of_digitCount_le {n limit : Nat} (h : Decimal.digitCount n ≤ limit) :
    n < Nat.pow 10 limit :=
  Nat.lt_of_lt_of_le (lt_pow_digitCount n) (Nat.pow_le_pow_right (by decide) h)

theorem isLong_of_digitCount {n : Int} (h : Decimal.digitCount n.natAbs ≤ Decimal.digitLimit) :
    Decimal.isLong n = false :=
  decide_eq_false (Nat.not_le_of_lt (lt_pow_of_digitCount_le h))

/-- A number is an integer or a floating point number. -/
theorem cases_of_readNumber? {cs r : List Char} {v : Value} (h : readNumber? cs = some (v, r)) :
    (∃ n, v = .int n) ∨ ∃ x, v = .float x := by
  unfold readNumber? at h
  simp only at h
  split at h
  · exact nomatch h
  · split at h
    · cases h
      exact .inl ⟨_, rfl⟩
    · cases h
      exact .inr ⟨_, rfl⟩

/-- A value that is no collection, and no long integer, needs no room. -/
theorem isJson_of_readConstant? {room : Nat} {cs r : List Char} {v : Value}
    (h : readConstant? cs = some (v, r)) : IsJson room v := by
  unfold readConstant? at h
  obtain ⟨⟨w, v'⟩, hmem, hout⟩ := List.exists_of_findSome?_eq_some h
  obtain ⟨r', -, hr'⟩ := Option.map_eq_some_iff.mp hout
  cases hr'
  have hall : ∀ x ∈ constants, x.2.plain = true ∧ x.2.depth = 0 ∧ x.2.holdsLong = false := by
    decide
  obtain ⟨hplain, hdepth, hshort⟩ := hall _ hmem
  exact ⟨⟨hplain, hdepth ▸ Nat.zero_le _⟩, hshort⟩

/-- What is read with some fuel is what a JSON document can hold, with as many collections inside each
    other as there was room for. -/
structure ReadsJson (fuel : Nat) : Prop where
  value : ∀ room cs v r, readValue fuel room cs = .ok (v, r) → IsJson room v
  items : ∀ room cs xs r, readItems fuel room cs = .ok (xs, r) → IsJson (room + 1) (.list xs)
  entries : ∀ room cs es r, readEntries fuel room cs = .ok (es, r) → IsJson (room + 1) (.map es)

theorem isJson_of_readValue {n : Nat} (ih : ReadsJson n) {room : Nat} {cs r : List Char} {v : Value}
    (h : readValue (n + 1) room cs = .ok (v, r)) : IsJson room v := by
  unfold readValue at h
  split at h
  · obtain ⟨⟨s, r'⟩, -, hout⟩ := Results.map_eq_ok.mp h
    cases hout
    exact ⟨⟨rfl, Nat.zero_le _⟩, rfl⟩
  · exact nomatch h
  · split at h
    · cases h
      exact isJson_map_nil
    · obtain ⟨⟨es, r'⟩, hes, hout⟩ := Results.map_eq_ok.mp h
      cases hout
      exact isJson_ofList (ih.entries _ _ _ _ hes)
  · exact nomatch h
  · split at h
    · cases h
      exact isJson_list.mpr fun x hx => absurd hx List.not_mem_nil
    · obtain ⟨⟨xs, r'⟩, hxs, hout⟩ := Results.map_eq_ok.mp h
      cases hout
      exact ih.items _ _ _ _ hxs
  · split at h
    · rename_i out hout
      cases h
      exact isJson_of_readConstant? hout
    · split at h
      · simp only at h
        split at h
        · exact nomatch h
        · rename_i hsize
          cases h
          exact ⟨⟨rfl, Nat.zero_le _⟩, by
            rw [Value.holdsLong]
            exact isLong_of_digitCount (Nat.le_of_not_lt hsize)⟩
      · rename_i out hnotInt hout
        cases h
        rcases cases_of_readNumber? hout with ⟨k, rfl⟩ | ⟨x, rfl⟩
        · exact absurd rfl (hnotInt k r)
        · exact ⟨⟨rfl, Nat.zero_le _⟩, rfl⟩
      · exact nomatch h

theorem isJson_of_readItems {n : Nat} (ih : ReadsJson n) {room : Nat} {cs r : List Char}
    {xs : List Value} (h : readItems (n + 1) room cs = .ok (xs, r)) :
    IsJson (room + 1) (.list xs) := by
  unfold readItems at h
  split at h
  · exact nomatch h
  · rename_i x r' hx
    have hx := ih.value _ _ _ _ hx
    split at h
    · cases h
      exact isJson_list.mpr fun y hy => List.mem_singleton.mp hy ▸ hx
    · obtain ⟨⟨ys, r''⟩, hys, hout⟩ := Results.map_eq_ok.mp h
      cases hout
      exact isJson_list.mpr
        (List.forall_mem_cons.mpr ⟨hx, isJson_list.mp (ih.items _ _ _ _ hys)⟩)
    · exact nomatch h

theorem isJson_of_readEntries {n : Nat} (ih : ReadsJson n) {room : Nat} {cs r : List Char}
    {es : Entries} (h : readEntries (n + 1) room cs = .ok (es, r)) :
    IsJson (room + 1) (.map es) := by
  unfold readEntries at h
  split at h
  · split at h
    · exact nomatch h
    · split at h
      · split at h
        · exact nomatch h
        · rename_i v r' hv
          have hv := ih.value _ _ _ _ hv
          simp only at h
          split at h
          · cases h
            exact isJson_map_cons.mpr ⟨⟨⟨_, rfl⟩, hv⟩, isJson_map_nil⟩
          · obtain ⟨⟨fs, r''⟩, hfs, hout⟩ := Results.map_eq_ok.mp h
            cases hout
            exact isJson_map_cons.mpr ⟨⟨⟨_, rfl⟩, hv⟩, ih.entries _ _ _ _ hfs⟩
          · exact nomatch h
      · exact nomatch h
  · exact nomatch h

/-- One step of a reader takes what the readers with less fuel gave. -/
theorem readsJson (fuel : Nat) : ReadsJson fuel := by
  induction fuel with
  | zero =>
      constructor
      · exact fun room cs v r h => nomatch h
      · exact fun room cs xs r h => nomatch h
      · exact fun room cs es r h => nomatch h
  | succ n ih =>
      constructor
      · exact fun room cs v r h => isJson_of_readValue ih h
      · exact fun room cs xs r h => isJson_of_readItems ih h
      · exact fun room cs es r h => isJson_of_readEntries ih h

/-- **Whatever is read from a JSON text is what a JSON document can hold.** -/
theorem isJson_of_read {text : String} {v : Value} (h : read text = .ok v) :
    IsJson depthLimit v := by
  have htext : readText text.toList = .ok v := by
    unfold read at h
    simp only at h
    cases hread : readText text.toList with
    | error f =>
        rw [hread] at h
        exact nomatch h
    | ok w =>
        rw [hread] at h
        cases h
        rfl
  unfold readText at htext
  split at htext
  · exact nomatch htext
  · split at htext
    · exact nomatch htext
    · rename_i w r hw
      split at htext
      · cases htext
        exact (readsJson _).value _ _ _ _ hw
      · exact nomatch htext

end Json

end Scaffold
