import Mathlib.Data.List.Basic
import Scaffold.Proofs.Schema.Accepted

/-!
# `Scaffold.Proofs.Schema.Fields` — the fields of a record

What is read of a record depends on what its fields say, and on whether every key of the mapping is the
spelling that a field was read from (`readRecord_eq_valid_iff`). So two mappings whose fields say the
same are read alike.

## Contents
- **Entries.** `Value.sameKey_text`, `Value.exists_entries?_map`, `Entries.lookup_cons_self`,
  `Entries.lookup_cons_of_ne`, `Entries.lookup_append`, `Entries.lookup_filter`,
  `Entries.put_of_new`, `Entries.lookup_put`, `Entries.put_put`.
- **Keys.** `Key.Spells`, `KeysApart`, `Key.find?_eq_none_iff`, `Key.find?_eq_none_iff_lookup`,
  `Key.spells_of_find?`.
- **Reading.** `readField_eq_valid_iff`, `exists_of_required`, `readField_congr`, `AllUsed`,
  `extraFaults_eq_nil_iff`, `extraFaults_append`, `readRecord_eq_valid_iff`, `readRecord_congr`.
- **Fields that are supplied.** `supply_eq_append`, `supply_eq_self`, `forall_mem_supply`,
  `Key.exists_find?_supply`, `read_of_supply`, `Key.find?_supply_of_ne`, `supplyNames_of_unnamed`,
  `supplyNames_of_named`, `forall_mem_supplyNames`.
-/

namespace Scaffold

/-! ## Entries -/

/-- No other key is taken for a text. -/
theorem Value.sameKey_text {v : Value} {s : String} : v.sameKey (.text s) = true ↔ v = .text s := by
  cases v <;> simp [Value.sameKey, Value.integral?]

theorem Value.exists_entries?_map {es : Entries} {P : Entries → Prop} :
    (∃ es', (Value.map es).entries? = some es' ∧ P es') ↔ P es := by
  constructor
  · rintro ⟨_, hes, h⟩
    cases hes
    exact h
  · intro h
    exact ⟨es, rfl, h⟩

namespace Entries

variable {es es' : Entries} {s t : String} {k v : Value}

theorem lookup_cons_self (s : String) (v : Value) (es : Entries) :
    Entries.lookup ((.text s, v) :: es) s = some v := by
  unfold lookup get?
  rw [if_pos (Value.sameKey_text.mpr rfl)]

theorem lookup_cons_of_ne (h : k ≠ .text s) (v : Value) (es : Entries) :
    Entries.lookup ((k, v) :: es) s = es.lookup s := by
  unfold lookup
  rw [get?, if_neg (mt Value.sameKey_text.mp h)]

theorem mem_of_lookup (h : es.lookup s = some v) : (.text s, v) ∈ es := by
  induction es with
  | nil => exact nomatch h
  | cons x es ih =>
      obtain ⟨k, w⟩ := x
      by_cases hk : k = .text s
      · subst hk
        rw [lookup_cons_self] at h
        cases h
        exact List.mem_cons_self
      · rw [lookup_cons_of_ne hk] at h
        exact List.mem_cons_of_mem _ (ih h)

theorem lookup_eq_none_iff : es.lookup s = none ↔ ∀ x ∈ es, x.1 ≠ .text s := by
  induction es with
  | nil => exact ⟨fun _ x hx => absurd hx List.not_mem_nil, fun _ => rfl⟩
  | cons x es ih =>
      obtain ⟨k, w⟩ := x
      rw [List.forall_mem_cons]
      by_cases hk : k = .text s
      · subst hk
        rw [lookup_cons_self]
        exact ⟨nofun, fun h => absurd rfl h.1⟩
      · rw [lookup_cons_of_ne hk, ih]
        exact ⟨fun h => ⟨hk, h⟩, fun h => h.2⟩

theorem lookup_append : Entries.lookup (es ++ es') s = (es.lookup s).or (es'.lookup s) := by
  induction es with
  | nil => rfl
  | cons x es ih =>
      obtain ⟨k, w⟩ := x
      rw [List.cons_append]
      by_cases hk : k = .text s
      · subst hk
        rw [lookup_cons_self, lookup_cons_self]
        rfl
      · rw [lookup_cons_of_ne hk, lookup_cons_of_ne hk, ih]

/-- What stands under a key stays if all its entries do. -/
theorem lookup_filter {p : Value × Value → Bool} (h : ∀ x ∈ es, x.1 = .text s → p x = true) :
    Entries.lookup (es.filter p) s = es.lookup s := by
  induction es with
  | nil => rfl
  | cons x es ih =>
      obtain ⟨k, w⟩ := x
      obtain ⟨hx, hes⟩ := List.forall_mem_cons.mp h
      by_cases hk : k = .text s
      · subst hk
        rw [List.filter_cons_of_pos (hx rfl), lookup_cons_self, lookup_cons_self]
      · rw [lookup_cons_of_ne hk, ← ih hes, List.filter_cons]
        by_cases hp : p (k, w) = true
        · rw [if_pos hp, lookup_cons_of_ne hk]
        · rw [if_neg hp]

/-- A new key comes last. -/
theorem put_of_new (h : es.lookup s = none) (v : Value) :
    es.put (.text s) v = es ++ [(.text s, v)] := by
  induction es with
  | nil => rfl
  | cons x es ih =>
      obtain ⟨k, w⟩ := x
      have hk : k ≠ .text s := lookup_eq_none_iff.mp h _ List.mem_cons_self
      rw [lookup_cons_of_ne hk] at h
      rw [put, if_neg (mt Value.sameKey_text.mp hk), ih h]
      rfl

/-- A value that was put is found under its key, all else as before. -/
theorem lookup_put (es : Entries) (s t : String) (v : Value) :
    Entries.lookup (es.put (.text s) v) t = if s = t then some v else es.lookup t := by
  induction es with
  | nil =>
      split
      · rename_i hst
        rw [← hst]
        exact lookup_cons_self s v []
      · rename_i hst
        exact lookup_cons_of_ne (mt Value.text.inj hst) v []
  | cons x es ih =>
      obtain ⟨k, w⟩ := x
      rw [put]
      by_cases hk : k = .text s
      · subst hk
        rw [if_pos (Value.sameKey_text.mpr rfl)]
        by_cases hst : s = t
        · rw [if_pos hst, hst, lookup_cons_self]
        · rw [if_neg hst, lookup_cons_of_ne (mt Value.text.inj hst),
            lookup_cons_of_ne (mt Value.text.inj hst)]
      · rw [if_neg (mt Value.sameKey_text.mp hk)]
        by_cases ht : k = .text t
        · subst ht
          rw [lookup_cons_self, lookup_cons_self, if_neg fun hst => hk (congrArg Value.text hst.symm)]
        · rw [lookup_cons_of_ne ht, lookup_cons_of_ne ht, ih]

/-- Of two values that are put under one key the second one stays. -/
theorem put_put (es : Entries) (s : String) (v w : Value) :
    (es.put (.text s) v).put (.text s) w = es.put (.text s) w := by
  induction es with
  | nil => rw [put, put, put, if_pos (Value.sameKey_text.mpr rfl)]
  | cons x es ih =>
      obtain ⟨k, u⟩ := x
      by_cases hk : k = .text s
      · have hsame := Value.sameKey_text.mpr hk
        rw [put, put, if_pos hsame, if_pos hsame, put, if_pos hsame]
      · have hother := mt Value.sameKey_text.mp hk
        rw [put, put, if_neg hother, if_neg hother, put, if_neg hother, ih]

end Entries

namespace Schema

/-! ## Keys -/

/-- The value is a spelling of the field. -/
def Key.Spells (k : Key) (v : Value) : Prop := v = .text k.camel ∨ v = .text k.snake

/-- No two fields share a spelling. -/
def KeysApart (keys : List Key) : Prop :=
  ∀ k ∈ keys, ∀ k' ∈ keys, (k.camel ∈ [k'.camel, k'.snake] ∨ k.snake ∈ [k'.camel, k'.snake]) → k = k'

instance (keys : List Key) : Decidable (KeysApart keys) := by unfold KeysApart; infer_instance

variable {k k' : Key} {keys : List Key} {es es' : Entries} {s : String} {v : Value}

/-- A spelling belongs to one field. -/
theorem KeysApart.unique (h : KeysApart keys) (hk : k ∈ keys) (hk' : k' ∈ keys) {x : Value}
    (hx : k.Spells x) (hx' : k'.Spells x) : k = k' := by
  refine h k hk k' hk' ?_
  rcases hx with rfl | rfl
  · rcases hx' with hx' | hx'
    · exact .inl (Value.text.inj hx' ▸ List.mem_cons_self)
    · exact .inl (Value.text.inj hx' ▸ List.mem_cons_of_mem _ List.mem_cons_self)
  · rcases hx' with hx' | hx'
    · exact .inr (Value.text.inj hx' ▸ List.mem_cons_self)
    · exact .inr (Value.text.inj hx' ▸ List.mem_cons_of_mem _ List.mem_cons_self)

theorem Key.find?_eq_none_iff : k.find? es = none ↔ ∀ x ∈ es, ¬ k.Spells x.1 := by
  unfold Key.find? Key.Spells
  constructor
  · intro h x hx hspells
    split at h
    · exact nomatch h
    · rename_i hcamel
      rw [Option.map_eq_none_iff] at h
      rcases hspells with hspells | hspells
      · exact Entries.lookup_eq_none_iff.mp hcamel x hx hspells
      · exact Entries.lookup_eq_none_iff.mp h x hx hspells
  · intro h
    rw [Entries.lookup_eq_none_iff.mpr fun x hx hcamel => h x hx (.inl hcamel),
      Entries.lookup_eq_none_iff.mpr fun x hx hsnake => h x hx (.inr hsnake)]
    rfl

/-- A field says nothing if neither spelling of it does. -/
theorem Key.find?_eq_none_iff_lookup :
    k.find? es = none ↔ es.lookup k.camel = none ∧ es.lookup k.snake = none := by
  unfold Key.find?
  cases es.lookup k.camel with
  | some w => exact ⟨nofun, fun h => nomatch h.1⟩
  | none =>
      rw [Option.map_eq_none_iff]
      exact ⟨fun h => ⟨rfl, h⟩, fun h => h.2⟩

/-- What a field says stands in the mapping under one of its spellings. -/
theorem Key.spells_of_find? (h : k.find? es = some (s, v)) :
    k.Spells (.text s) ∧ (.text s, v) ∈ es := by
  unfold Key.find? at h
  split at h
  · rename_i w hw
    cases h
    exact ⟨.inl rfl, Entries.mem_of_lookup hw⟩
  · obtain ⟨w, hw, hout⟩ := Option.map_eq_some_iff.mp h
    cases hout
    exact ⟨.inr rfl, Entries.mem_of_lookup hw⟩

/-- A field says what its spellings say. -/
theorem Key.find?_congr (hcamel : es'.lookup k.camel = es.lookup k.camel)
    (hsnake : es'.lookup k.snake = es.lookup k.snake) : k.find? es' = k.find? es := by
  unfold Key.find?
  rw [hcamel, hsnake]

/-! ## Reading -/

variable {α : Type} {read : Value → Checked α} {default : Option α} {a : α}

/-- A field is read from what it says, or has its default. -/
theorem readField_eq_valid_iff : readField es k read default = .valid a ↔
    (∃ entry, k.find? es = some entry ∧ read entry.2 = .valid a) ∨
      k.find? es = none ∧ default = some a := by
  unfold readField
  cases k.find? es with
  | some entry =>
      simp only [within_eq_valid]
      exact ⟨fun h => .inl ⟨entry, rfl, h⟩, fun h => by
        rcases h with ⟨_, hentry, h⟩ | h
        · cases hentry
          exact h
        · exact nomatch h.1⟩
  | none =>
      cases default with
      | none =>
          constructor
          · intro h
            exact nomatch h
          · rintro (⟨_, hentry, -⟩ | ⟨-, hdefault⟩)
            · exact nomatch hentry
            · exact nomatch hdefault
      | some b =>
          constructor
          · intro h
            cases h
            exact .inr ⟨rfl, rfl⟩
          · rintro (⟨_, hentry, -⟩ | ⟨-, hdefault⟩)
            · exact nomatch hentry
            · cases hdefault
              rfl

/-- What was read from a field that is there was read from its value. -/
theorem read_of_readField {entry : String × Value} (hfind : k.find? es = some entry)
    (h : readField es k read default = .valid a) : read entry.2 = .valid a := by
  rcases readField_eq_valid_iff.mp h with ⟨_, hentry, hread⟩ | ⟨hnone, -⟩
  · cases hfind.symm.trans hentry
    exact hread
  · exact nomatch hfind.symm.trans hnone

/-- A field without a default is there. -/
theorem exists_of_required (h : readField es k read none = .valid a) :
    ∃ entry, k.find? es = some entry ∧ read entry.2 = .valid a := by
  rcases readField_eq_valid_iff.mp h with hentry | ⟨-, hdefault⟩
  · exact hentry
  · exact nomatch hdefault

theorem readField_congr (h : k.find? es' = k.find? es) :
    readField es' k read default = readField es k read default := by
  unfold readField
  rw [h]

/-- Every key is the spelling that a field is read from. -/
def AllUsed (keys : List Key) (es : Entries) : Prop :=
  ∀ x ∈ es, ∃ s, x.1 = .text s ∧ ∃ k ∈ keys, ∃ v, k.find? es = some (s, v)

theorem extraFaults_eq_nil_iff {used : List String} :
    extraFaults used es = [] ↔ ∀ x ∈ es, ∃ s, x.1 = .text s ∧ s ∈ used := by
  induction es with
  | nil => exact ⟨fun _ x hx => absurd hx List.not_mem_nil, fun _ => rfl⟩
  | cons x es ih =>
      obtain ⟨key, w⟩ := x
      rw [List.forall_mem_cons]
      cases key with
      | text s =>
          rw [extraFaults]
          by_cases hs : used.contains s = true
          · rw [if_pos hs, ih]
            exact ⟨fun h => ⟨⟨s, rfl, List.contains_iff_mem.mp hs⟩, h⟩, fun h => h.2⟩
          · rw [if_neg hs]
            constructor
            · intro h
              exact nomatch h
            · rintro ⟨⟨t, ht, hused⟩, -⟩
              cases ht
              exact absurd (List.contains_iff_mem.mpr hused) hs
      | _ =>
          constructor
          · intro h
            exact nomatch h
          · rintro ⟨⟨t, ht, -⟩, -⟩
            exact nomatch ht

theorem extraFaults_append {used : List String} :
    extraFaults used (es ++ es') = extraFaults used es ++ extraFaults used es' := by
  induction es with
  | nil => rfl
  | cons x es ih =>
      obtain ⟨key, w⟩ := x
      rw [List.cons_append]
      cases key with
      | text s =>
          rw [extraFaults, extraFaults, ih]
          split <;> rfl
      | _ => exact congrArg (List.cons _) ih

/-- **A record is read exactly if** it is a mapping, every key of it is used, and its fields are
    read. -/
theorem readRecord_eq_valid_iff {model : String} {body : Entries → Checked α} :
    readRecord model keys body v = .valid a ↔
      ∃ es, v.entries? = some es ∧ AllUsed keys es ∧ body es = .valid a := by
  unfold readRecord
  cases v.entries? with
  | none =>
      constructor
      · intro h
        exact nomatch h
      · rintro ⟨_, hes, -⟩
        exact nomatch hes
  | some es =>
      have hused : extraFaults (keys.filterMap fun k => (k.find? es).map (·.1)) es = [] ↔
          AllUsed keys es := by
        rw [extraFaults_eq_nil_iff]
        refine forall₂_congr fun x _ => exists_congr fun s => and_congr_right fun _ => ?_
        rw [List.mem_filterMap]
        refine exists_congr fun k => and_congr_right fun _ => ?_
        rw [Option.map_eq_some_iff]
        exact ⟨fun ⟨⟨t, w⟩, hfind, ht⟩ => ⟨w, ht ▸ hfind⟩, fun ⟨w, hfind⟩ => ⟨(s, w), hfind, rfl⟩⟩
      simp only [Option.some.injEq, exists_eq_left']
      rw [← hused]
      split
      · rename_i hnil
        exact ⟨fun h => ⟨hnil, h⟩, fun h => h.2⟩
      · rename_i fs hne
        refine ⟨fun h => ?_, fun h => absurd h.1 hne⟩
        -- keys that no field has read spoil the record
        generalize body es = b at h
        cases b <;> exact absurd h (by simp [SeqLeft.seqLeft, Checked.seq, Checked.map])

/-- Records whose fields say the same, and with the same keys that are not used, are read alike. -/
theorem readRecord_congr {model : String} {body : Entries → Checked α}
    (hfind : ∀ k ∈ keys, k.find? es' = k.find? es)
    (hextra : extraFaults (keys.filterMap fun k => (k.find? es).map (·.1)) es' =
      extraFaults (keys.filterMap fun k => (k.find? es).map (·.1)) es)
    (hbody : body es' = body es) :
    readRecord model keys body (.map es') = readRecord model keys body (.map es) := by
  have hused : (keys.filterMap fun k => (k.find? es').map (·.1)) =
      keys.filterMap fun k => (k.find? es).map (·.1) :=
    List.filterMap_congr fun k hk => by rw [hfind k hk]
  have hes : (Value.map es).entries? = some es := rfl
  have hes' : (Value.map es').entries? = some es' := rfl
  unfold readRecord
  rw [hes, hes']
  simp only [hused, hextra, hbody]

/-! ## Fields that are supplied -/

/-- A field that is not given comes last. -/
theorem supply_eq_append (h : k.find? es = none) :
    supply k v es = es ++ [(.text k.snake, v)] := by
  unfold supply
  rw [h, if_neg (by exact Bool.false_ne_true)]
  exact Entries.put_of_new (Key.find?_eq_none_iff_lookup.mp h).2 v

theorem supply_eq_self {entry : String × Value} (h : k.find? es = some entry) :
    supply k v es = es := by
  unfold supply
  rw [h]
  rfl

/-- What holds of every entry, and of what is supplied, holds of every entry afterwards. -/
theorem forall_mem_supply {P : Value × Value → Prop} (hv : P (.text k.snake, v))
    (hes : ∀ x ∈ es, P x) : ∀ x ∈ supply k v es, P x := by
  cases hfind : k.find? es with
  | some entry =>
      rw [supply_eq_self hfind]
      exact hes
  | none =>
      rw [supply_eq_append hfind, List.forall_mem_append]
      exact ⟨hes, List.forall_mem_singleton.mpr hv⟩

/-- What is supplied for a field that is not given is found there, whatever spelling is tried. -/
theorem Key.exists_find?_supply (h : k.find? es = none) :
    ∃ s, k.find? (supply k v es) = some (s, v) := by
  obtain ⟨hcamel, hsnake⟩ := Key.find?_eq_none_iff_lookup.mp h
  rw [supply_eq_append h]
  unfold Key.find?
  rw [Entries.lookup_append, Entries.lookup_append, hcamel, hsnake, Option.none_or, Option.none_or,
    Entries.lookup_cons_self]
  by_cases hsame : k.snake = k.camel
  · rw [← hsame, Entries.lookup_cons_self]
    exact ⟨_, rfl⟩
  · rw [Entries.lookup_cons_of_ne (mt Value.text.inj hsame)]
    exact ⟨_, rfl⟩

/-- What was read from a field that was supplied was read from what was supplied. -/
theorem read_of_supply (hnone : k.find? es = none)
    (h : readField (supply k v es) k read default = .valid a) : read v = .valid a := by
  obtain ⟨s, hs⟩ := Key.exists_find?_supply (v := v) hnone
  exact read_of_readField hs h

/-- Supplying a field leaves the others. -/
theorem Key.find?_supply_of_ne (hcamel : k'.snake ≠ k.camel) (hsnake : k'.snake ≠ k.snake) :
    k.find? (supply k' v es) = k.find? es := by
  cases hfind : k'.find? es with
  | some entry => rw [supply_eq_self hfind]
  | none =>
      rw [supply_eq_append hfind]
      refine Key.find?_congr ?_ ?_
      · rw [Entries.lookup_append, Entries.lookup_cons_of_ne (mt Value.text.inj hcamel)]
        exact Option.or_none
      · rw [Entries.lookup_append, Entries.lookup_cons_of_ne (mt Value.text.inj hsnake)]
        exact Option.or_none

/-- Without a name nothing is called after it. -/
theorem supplyNames_of_unnamed (hes : v.entries? = some es)
    (h : ∀ e, Key.find? ⟨"tscName", "tsc_name"⟩ es = some e → e.2 = .null) : supplyNames v = v := by
  unfold supplyNames
  rw [hes]
  simp only
  split
  · rfl
  · rfl
  · rename_i hne hfind
    exact absurd (h _ hfind) hne

/-- Files and table are called after the entity where they have no name. -/
theorem supplyNames_of_named (hes : v.entries? = some es) {name : Value}
    (h : Key.find? ⟨"tscName", "tsc_name"⟩ es = some (s, name)) (hne : name ≠ .null) :
    supplyNames v =
      .map (supply ⟨"sqlName", "sql_name"⟩ name (supply ⟨"fileName", "file_name"⟩ name es)) := by
  unfold supplyNames
  rw [hes]
  simp only
  split
  · rename_i hnone
    exact nomatch h.symm.trans hnone
  · rename_i hnull
    cases h.symm.trans hnull
    exact absurd rfl hne
  · rename_i hsome
    cases h.symm.trans hsome
    rfl

/-- Names are supplied to mappings only. -/
theorem supplyNames_of_entries?_eq_none (h : v.entries? = none) : supplyNames v = v := by
  unfold supplyNames
  rw [h]

/-- What holds of every entry, whatever text its key is, holds of every entry once names were supplied:
    the value that is supplied stands there already. -/
theorem forall_mem_supplyNames {P : Value × Value → Prop}
    (hkey : ∀ s s' u, P (.text s, u) → P (.text s', u)) (hes : ∀ x ∈ es, P x) :
    ∃ es', supplyNames (.map es) = .map es' ∧ ∀ x ∈ es', P x := by
  have hentries : (Value.map es).entries? = some es := rfl
  unfold supplyNames
  rw [hentries]
  simp only
  split
  · exact ⟨es, rfl, hes⟩
  · exact ⟨es, rfl, hes⟩
  · rename_i s name _ hfind
    have hname : ∀ s', P (.text s', name) := fun s' => hkey s s' name (hes _ (Key.spells_of_find? hfind).2)
    exact ⟨_, rfl, forall_mem_supply (hname _) (forall_mem_supply (hname _) hes)⟩

end Schema

end Scaffold
