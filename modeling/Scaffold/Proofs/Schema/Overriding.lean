import Scaffold.Proofs.Schema.Options

/-!
# `Scaffold.Proofs.Schema.Overriding` — options put over those of a document

Options that are put over those of a document take the place of every spelling that the document uses
for them, and stand behind its other options (`override_eq`). So what is overridden is read from what is
put over it alone, and everything else from the document alone (`readField_override`); whatever the
document says about an overridden option does not matter, be it illegal (`options_overridden`).

## Contents
- **Overrides.** `Overrides`, `concerns`, `without`, `byName`, `spelled`.
- **Entries.** `overrideOne_eq`, `override_eq`, `without_override`, `filter_spelled`.
- **Fields.** `find?_without`, `find?_byName`, `find?_override`.
- **Reading.** `readField_override`, `allUsed_override_iff`, `readFrom_override_iff`, `read_without`,
  `read_override_iff`.
- **Orders.** `Overrides.perm`, `read_override_perm`.
- **The theorem.** `Overridden`, `options_overridden`.
-/

namespace Scaffold.Schema.Options

/-! ## Overrides -/

/-- Values for options under the names that this program has for them, each name once. -/
structure Overrides (given : List (String × Value)) : Prop where
  declared : ∀ x ∈ given, ∃ k ∈ keys, k.snake = x.1
  distinct : (given.map Prod.fst).Nodup

/-- The entry gives one of some options, under either spelling. -/
def concerns (names : List String) (x : Value × Value) : Bool :=
  names.any fun n => x.1.sameKey (.text n) || x.1.sameKey (.text (spelling n))

/-- Options without some of them, whatever their spelling. -/
def without (es : Entries) (names : List String) : Entries := es.filter fun x => !concerns names x

/-- Overrides as options under the names that they have. -/
def byName (given : List (String × Value)) : Entries := given.map fun x => (.text x.1, x.2)

/-- Overrides as options under the spellings of documents. -/
def spelled (given : List (String × Value)) : Entries :=
  given.map fun x => (.text (spelling x.1), x.2)

theorem spelling_snake {k : Key} (hk : k ∈ keys) : spelling k.snake = k.camel := by
  have hall : ∀ k ∈ keys, spelling k.snake = k.camel := by decide +kernel
  exact hall k hk

variable {es : Entries} {given : List (String × Value)} {names : List String} {k : Key}

/-- An entry gives an option exactly if its key is a spelling of it. -/
theorem concerns_iff (hnames : ∀ n ∈ names, ∃ k ∈ keys, k.snake = n) {x : Value × Value} :
    concerns names x = true ↔ ∃ k ∈ keys, k.snake ∈ names ∧ k.Spells x.1 := by
  unfold concerns
  rw [List.any_eq_true]
  constructor
  · rintro ⟨n, hn, hx⟩
    obtain ⟨k, hk, rfl⟩ := hnames n hn
    rw [Bool.or_eq_true, Value.sameKey_text, Value.sameKey_text, spelling_snake hk] at hx
    exact ⟨k, hk, hn, hx.symm⟩
  · rintro ⟨k, hk, hn, hx⟩
    refine ⟨k.snake, hn, ?_⟩
    rw [Bool.or_eq_true, Value.sameKey_text, Value.sameKey_text, spelling_snake hk]
    exact hx.symm

/-- The entries of a declared option are left out with it, and with no other one. -/
theorem concerns_of_spells (hnames : ∀ n ∈ names, ∃ k ∈ keys, k.snake = n) (hk : k ∈ keys)
    {x : Value × Value} (hx : k.Spells x.1) : concerns names x = true ↔ k.snake ∈ names := by
  rw [concerns_iff hnames]
  constructor
  · rintro ⟨k', hk', hn, hx'⟩
    rw [keysApart.unique hk hk' hx hx']
    exact hn
  · intro hn
    exact ⟨k, hk, hn, hx⟩

/-! ## Entries -/

/-- One option is put behind the others. -/
theorem overrideOne_eq (es : Entries) (name : String) (v : Value) :
    overrideOne es name v = without es [name] ++ [(.text (spelling name), v)] := by
  have hkept : (es.remove name).remove (spelling name) = without es [name] := by
    unfold Entries.remove without
    rw [List.filter_filter]
    refine List.filter_congr fun x _ => ?_
    obtain ⟨key, w⟩ := x
    show (!key.sameKey (.text (spelling name)) && !key.sameKey (.text name)) = !concerns [name] (key, w)
    unfold concerns
    rw [List.any_cons, List.any_nil, Bool.or_false, Bool.not_or, Bool.and_comm]
  unfold overrideOne
  rw [hkept]
  refine Entries.put_of_new (Entries.lookup_eq_none_iff.mpr fun x hx hkey => ?_) v
  have hx := (List.mem_filter.mp hx).2
  have hconcerned : concerns [name] x = true := by
    unfold concerns
    rw [List.any_cons, hkey, Value.sameKey_text.mpr rfl, Bool.or_true, Bool.true_or]
  rw [hconcerned] at hx
  exact nomatch hx

theorem without_append (es es' : Entries) (names : List String) :
    without (es ++ es') names = without es names ++ without es' names := List.filter_append ..

theorem without_nil (es : Entries) : without es [] = es := List.filter_eq_self.mpr fun _ _ => rfl

theorem without_without (es : Entries) (a b : List String) :
    without (without es a) b = without es (a ++ b) := by
  unfold without
  rw [List.filter_filter]
  refine List.filter_congr fun x _ => ?_
  unfold concerns
  rw [List.any_append, Bool.not_or, Bool.and_comm]

theorem without_eq_nil (h : ∀ x ∈ es, concerns names x = true) : without es names = [] := by
  refine List.filter_eq_nil_iff.mpr fun x hx => ?_
  rw [h x hx]
  decide

theorem without_eq_self (h : ∀ x ∈ es, concerns names x = false) : without es names = es := by
  refine List.filter_eq_self.mpr fun x hx => ?_
  rw [h x hx]
  rfl

theorem Overrides.known (h : Overrides given) : ∀ n ∈ given.map Prod.fst, ∃ k ∈ keys, k.snake = n := by
  intro n hn
  obtain ⟨x, hx, rfl⟩ := List.mem_map.mp hn
  exact h.declared x hx

theorem Overrides.tail {x : String × Value} (h : Overrides (x :: given)) : Overrides given :=
  ⟨fun y hy => h.declared y (List.mem_cons_of_mem _ hy), (List.nodup_cons.mp h.distinct).2⟩

/-- **The overrides stand behind what is left**, in their order and under the spellings of documents. -/
theorem override_eq (h : Overrides given) (es : Entries) :
    override es given = without es (given.map Prod.fst) ++ spelled given := by
  induction given generalizing es with
  | nil =>
      rw [List.map_nil, without_nil]
      exact (List.append_nil es).symm
  | cons x given ih =>
      obtain ⟨name, v⟩ := x
      show override (overrideOne es name v) given = _
      -- the new entry is not in the way of those that follow
      have hnew : without [(.text (spelling name), v)] (given.map Prod.fst) =
          [(.text (spelling name), v)] := by
        refine without_eq_self fun x hx => ?_
        rw [List.mem_singleton.mp hx, ← Bool.not_eq_true]
        obtain ⟨k, hk, hname⟩ : ∃ k ∈ keys, k.snake = name := h.declared _ List.mem_cons_self
        have hspells : k.Spells (.text (spelling name)) := .inl (by rw [← hname, spelling_snake hk])
        rw [concerns_of_spells h.tail.known hk hspells, hname]
        exact (List.nodup_cons.mp h.distinct).1
      rw [ih h.tail, overrideOne_eq, without_append, without_without, hnew, List.append_assoc]
      rfl

theorem without_override (h : Overrides given) (es : Entries) :
    without (override es given) (given.map Prod.fst) = without es (given.map Prod.fst) := by
  have hkept : without (without es (given.map Prod.fst)) (given.map Prod.fst) =
      without es (given.map Prod.fst) :=
    without_eq_self fun x hx => (Bool.not_eq_true' _).mp (List.mem_filter.mp hx).2
  have hnone : without (spelled given) (given.map Prod.fst) = [] := by
    refine without_eq_nil fun x hx => ?_
    obtain ⟨y, hy, rfl⟩ := List.mem_map.mp hx
    obtain ⟨k, hk, hname⟩ := h.declared y hy
    rw [concerns_of_spells h.known hk (.inl (by rw [← hname, spelling_snake hk])), hname]
    exact List.mem_map_of_mem hy
  rw [override_eq h, without_append, hkept, hnone, List.append_nil]

theorem known_singleton (hk : k ∈ keys) : ∀ n ∈ [k.snake], ∃ k ∈ keys, k.snake = n := by
  intro n hn
  exact ⟨k, hk, (List.mem_singleton.mp hn).symm⟩

/-- Where one overridden option stands. -/
theorem filter_spelled (h : Overrides given) (hk : k ∈ keys) {v : Value}
    (hmem : (k.snake, v) ∈ given) :
    (spelled given).filter (concerns [k.snake]) = [(.text k.camel, v)] := by
  have hconcerned : ∀ x : String × Value, (∃ k' ∈ keys, k'.snake = x.1) →
      (concerns [k.snake] (.text (spelling x.1), x.2) = true ↔ x.1 = k.snake) := by
    rintro ⟨n, w⟩ ⟨k', hk', rfl⟩
    rw [concerns_of_spells (known_singleton hk) hk' (.inl (by rw [spelling_snake hk'])),
      List.mem_singleton]
  induction given with
  | nil => exact absurd hmem List.not_mem_nil
  | cons x given ih =>
      have hx := hconcerned x (h.declared x List.mem_cons_self)
      obtain ⟨hnew, -⟩ := List.nodup_cons.mp h.distinct
      show ((.text (spelling x.1), x.2) :: spelled given).filter _ = _
      rcases List.mem_cons.mp hmem with rfl | hmem
      · rw [List.filter_cons_of_pos (hx.mpr rfl), spelling_snake hk, List.filter_eq_nil_iff.mpr]
        intro y hy hconcerns
        obtain ⟨z, hz, rfl⟩ := List.mem_map.mp hy
        rw [hconcerned z (h.tail.declared z hz)] at hconcerns
        exact hnew (List.mem_map.mpr ⟨z, hz, hconcerns⟩)
      · rw [List.filter_cons_of_neg, ih h.tail hmem]
        rw [hx]
        rintro hname
        exact hnew (hname ▸ List.mem_map_of_mem hmem)

/-! ## Fields -/

/-- What is left says nothing about what is overridden, and all else as before. -/
theorem find?_without (es : Entries) (hnames : ∀ n ∈ names, ∃ k ∈ keys, k.snake = n) (hk : k ∈ keys) :
    k.find? (without es names) = if k.snake ∈ names then none else k.find? es := by
  split
  · rename_i hn
    refine Key.find?_eq_none_iff.mpr fun x hx hspells => ?_
    have hkept := (List.mem_filter.mp hx).2
    rw [(concerns_of_spells hnames hk hspells).mpr hn] at hkept
    exact nomatch hkept
  · rename_i hn
    have hkept : ∀ x ∈ es, k.Spells x.1 → (!concerns names x) = true := by
      intro x _ hspells
      rw [Bool.not_eq_true', ← Bool.not_eq_true, concerns_of_spells hnames hk hspells]
      exact hn
    exact Key.find?_congr (Entries.lookup_filter fun x hx hkey => hkept x hx (.inl hkey))
      (Entries.lookup_filter fun x hx hkey => hkept x hx (.inr hkey))

theorem lookup_eq_none_iff {name : String} :
    given.lookup name = none ↔ name ∉ given.map Prod.fst := by
  rw [List.lookup_eq_none_iff, List.mem_map, not_exists]
  refine forall_congr' fun x => ?_
  rw [not_and, bne_iff_ne]
  exact imp_congr_right fun _ => ne_comm

theorem exists_lookup {name : String} (h : name ∈ given.map Prod.fst) :
    ∃ v, given.lookup name = some v :=
  Option.ne_none_iff_exists'.mp (mt lookup_eq_none_iff.mp (not_not_intro h))

/-- Among overrides, an option is looked up by its name. -/
theorem lookup_byName (given : List (String × Value)) (name : String) :
    (byName given).lookup name = given.lookup name := by
  induction given with
  | nil => rfl
  | cons x given ih =>
      obtain ⟨n, v⟩ := x
      show Entries.lookup ((.text n, v) :: byName given) name = _
      rw [List.lookup_cons]
      by_cases hn : name = n
      · subst hn
        rw [Entries.lookup_cons_self, beq_self_eq_true]
      · rw [Entries.lookup_cons_of_ne (fun h => hn (Value.text.inj h).symm), beq_false_of_ne hn, ih]

theorem find?_byName (h : Overrides given) (hk : k ∈ keys) :
    k.find? (byName given) = (given.lookup k.snake).map fun v => (k.snake, v) := by
  unfold Key.find?
  rw [lookup_byName, lookup_byName]
  split
  · rename_i v hcamel
    -- a name that spells two options spells one
    obtain ⟨x, hx, hname⟩ : ∃ x ∈ given, x.1 = k.camel := by
      have hmem := Entries.mem_of_lookup ((lookup_byName given k.camel).trans hcamel)
      obtain ⟨x, hx, heq⟩ := List.mem_map.mp hmem
      exact ⟨x, hx, Value.text.inj (Prod.mk.inj heq).1⟩
    obtain ⟨k', hk', hsnake⟩ := h.declared x hx
    have hsame : k = k' := keysApart.unique hk hk' (x := .text k.camel) (.inl rfl)
      (.inr (by rw [hsnake, hname]))
    have hone : k.camel = k.snake := by rw [← hname, ← hsnake, hsame]
    rw [← hone, hcamel]
    rfl
  · rfl

/-- The overrides under the spellings of documents are looked up by these. -/
theorem lookup_spelled (h : Overrides given) (hk : k ∈ keys) :
    (spelled given).lookup k.camel = given.lookup k.snake := by
  induction given with
  | nil => rfl
  | cons x given ih =>
      obtain ⟨n, v⟩ := x
      obtain ⟨k', hk', rfl⟩ := h.declared _ List.mem_cons_self
      show Entries.lookup ((.text (spelling k'.snake), v) :: spelled given) k.camel = _
      rw [List.lookup_cons, spelling_snake hk']
      by_cases hsame : k = k'
      · subst hsame
        rw [Entries.lookup_cons_self, beq_self_eq_true]
      · have hcamel : Value.text k'.camel ≠ .text k.camel := fun heq =>
          hsame (keysApart.unique hk hk' (x := .text k.camel) (.inl rfl) (.inl heq.symm))
        have hsnake : k.snake ≠ k'.snake := fun heq =>
          hsame (keysApart.unique hk hk' (x := .text k.snake) (.inr rfl) (.inr (by rw [heq])))
        rw [Entries.lookup_cons_of_ne hcamel, beq_false_of_ne hsnake, ih h.tail]

/-- **An overridden option is what is put over it, every other one is as it was.** -/
theorem find?_override (es : Entries) (h : Overrides given) (hk : k ∈ keys) :
    k.find? (override es given) = match given.lookup k.snake with
      | some v => some (k.camel, v)
      | none => k.find? es := by
  have hleft := find?_without es h.known hk
  cases hv : given.lookup k.snake with
  | some v =>
      have hmem : k.snake ∈ given.map Prod.fst := by
        by_contra hnot
        exact nomatch hv.symm.trans (lookup_eq_none_iff.mpr hnot)
      rw [if_pos hmem, Key.find?_eq_none_iff] at hleft
      have hnone : (without es (given.map Prod.fst)).lookup k.camel = none :=
        Entries.lookup_eq_none_iff.mpr fun x hx hkey => hleft x hx (.inl hkey)
      unfold Key.find?
      rw [override_eq h, Entries.lookup_append, hnone, lookup_spelled h hk, hv]
      rfl
  | none =>
      have hnot : k.snake ∉ given.map Prod.fst := lookup_eq_none_iff.mp hv
      rw [if_neg hnot] at hleft
      have hnone : ∀ x ∈ spelled given, ¬ k.Spells x.1 := by
        rintro _ hmem hspells
        obtain ⟨x, hx, rfl⟩ := List.mem_map.mp hmem
        obtain ⟨k', hk', hname⟩ := h.declared x hx
        have hsame := keysApart.unique hk hk' hspells (.inl (by rw [← hname, spelling_snake hk']))
        exact hnot (List.mem_map.mpr ⟨x, hx, by rw [hsame, hname]⟩)
      rw [← hleft, override_eq h]
      refine Key.find?_congr ?_ ?_
      · rw [Entries.lookup_append, Entries.lookup_eq_none_iff.mpr fun x hx hkey =>
          hnone x hx (.inl hkey), Option.or_none]
      · rw [Entries.lookup_append, Entries.lookup_eq_none_iff.mpr fun x hx hkey =>
          hnone x hx (.inr hkey), Option.or_none]

/-! ## Reading -/

/-- **An overridden option is read from the overrides alone**, every other one from what is left
    alone. -/
theorem readField_override {α : Type} {read : Value → Checked α} {default : Option α} {a : α}
    (h : Overrides given) (hk : k ∈ keys) :
    readField (override es given) k read default = .valid a ↔
      if k.snake ∈ given.map Prod.fst then readField (byName given) k read default = .valid a
      else readField (without es (given.map Prod.fst)) k read default = .valid a := by
  have hmerged := find?_override es h hk
  have hnamed := find?_byName h hk
  have hleft := find?_without es h.known hk
  split
  · rename_i hmem
    obtain ⟨v, hv⟩ := exists_lookup hmem
    rw [hv] at hmerged hnamed
    rw [readField_eq_valid_iff, readField_eq_valid_iff, hmerged, hnamed]
    simp
  · rename_i hnot
    rw [lookup_eq_none_iff.mpr hnot] at hmerged
    rw [if_neg hnot] at hleft
    rw [readField_congr (hmerged.trans hleft.symm)]

/-- What is not overridden has its default among the overrides. -/
theorem readField_byName_default {α : Type} {read : Value → Checked α} {a : α} (h : Overrides given)
    (hk : k ∈ keys) (hnot : k.snake ∉ given.map Prod.fst) :
    readField (byName given) k read (some a) = .valid a := by
  have hnone := find?_byName h hk
  rw [lookup_eq_none_iff.mpr hnot] at hnone
  exact readField_eq_valid_iff.mpr (.inr ⟨hnone, rfl⟩)

/-- What is overridden has its default in what is left. -/
theorem readField_without_default {α : Type} {read : Value → Checked α} {a : α} (h : Overrides given)
    (hk : k ∈ keys) (hmem : k.snake ∈ given.map Prod.fst) :
    readField (without es (given.map Prod.fst)) k read (some a) = .valid a := by
  have hnone := find?_without es h.known hk
  rw [if_pos hmem] at hnone
  exact readField_eq_valid_iff.mpr (.inr ⟨hnone, rfl⟩)

/-- Among overrides every name is used. -/
theorem allUsed_byName (h : Overrides given) : AllUsed keys (byName given) := by
  intro entry hentry
  obtain ⟨x, hx, rfl⟩ := List.mem_map.mp hentry
  obtain ⟨k, hk, hname⟩ := h.declared x hx
  have hfind := find?_byName h hk
  obtain ⟨v, hv⟩ := exists_lookup (List.mem_map.mpr ⟨x, hx, hname.symm⟩)
  rw [hv] at hfind
  exact ⟨k.snake, congrArg Value.text hname.symm, k, hk, v, hfind⟩

/-- **Overrides bring no key that is not used**, and take none away but their own. -/
theorem allUsed_override_iff (h : Overrides given) :
    AllUsed keys (override es given) ↔ AllUsed keys (without es (given.map Prod.fst)) := by
  have hkept : ∀ k ∈ keys, k.snake ∉ given.map Prod.fst →
      k.find? (override es given) = k.find? (without es (given.map Prod.fst)) := by
    intro k hk hnot
    have hmerged := find?_override es h hk
    rw [lookup_eq_none_iff.mpr hnot] at hmerged
    rw [hmerged, find?_without es h.known hk, if_neg hnot]
  constructor
  · intro hall x hx
    have hmem : x ∈ override es given := by
      rw [override_eq h]
      exact List.mem_append_left _ hx
    obtain ⟨s, hs, k, hk, v, hfind⟩ := hall x hmem
    have hnot : k.snake ∉ given.map Prod.fst := by
      intro hn
      have hconcerned := (List.mem_filter.mp hx).2
      have hspells : k.Spells x.1 := hs ▸ (Key.spells_of_find? hfind).1
      rw [(concerns_of_spells h.known hk hspells).mpr hn] at hconcerned
      exact nomatch hconcerned
    exact ⟨s, hs, k, hk, v, hkept k hk hnot ▸ hfind⟩
  · intro hall x hx
    rw [override_eq h] at hx
    rcases List.mem_append.mp hx with hx | hx
    · obtain ⟨s, hs, k, hk, v, hfind⟩ := hall x hx
      have hnot : k.snake ∉ given.map Prod.fst := by
        intro hn
        rw [find?_without es h.known hk, if_pos hn] at hfind
        exact nomatch hfind
      exact ⟨s, hs, k, hk, v, (hkept k hk hnot).symm ▸ hfind⟩
    · obtain ⟨y, hy, rfl⟩ := List.mem_map.mp hx
      obtain ⟨k, hk, hname⟩ := h.declared y hy
      have hfind := find?_override es h hk
      obtain ⟨v, hv⟩ := exists_lookup (List.mem_map.mpr ⟨y, hy, hname.symm⟩)
      rw [hv] at hfind
      exact ⟨k.camel, by rw [← hname, spelling_snake hk], k, hk, v, hfind⟩

variable {platform : String}

/-- **Options can be read where they are put together exactly if they can be on both sides**, and each
    of them is what it is on its side. -/
theorem readFrom_override_iff (h : Overrides given) {m : Options} :
    ReadFrom platform (override es given) m ↔ ∃ a b, ReadFrom platform (byName given) a ∧
      ReadFrom platform (without es (given.map Prod.fst)) b ∧
      m = overlaid (given.map Prod.fst) a b := by
  constructor
  · intro hm
    refine ⟨overlaid (given.map Prod.fst) m (standard platform),
      overlaid (given.map Prod.fst) (standard platform) m, ?_, ?_, (overlaid_overlaid _ _ m).symm⟩
    · refine EachOption.overlaid hm (eachOption_standard platform) fun {α k read d x y} hk hx hy => ?_
      subst hy
      rw [readField_override h hk] at hx
      by_cases hmem : k.snake ∈ given.map Prod.fst
      · rw [if_pos hmem] at hx ⊢
        exact hx
      · rw [if_neg hmem]
        exact readField_byName_default h hk hmem
    · refine EachOption.overlaid (eachOption_standard platform) hm fun {α k read d x y} hk hx hy => ?_
      subst hx
      rw [readField_override h hk] at hy
      by_cases hmem : k.snake ∈ given.map Prod.fst
      · rw [if_pos hmem]
        exact readField_without_default h hk hmem
      · rw [if_neg hmem] at hy ⊢
        exact hy
  · rintro ⟨a, b, ha, hb, rfl⟩
    refine EachOption.overlaid ha hb fun {α k read d x y} hk hx hy => ?_
    rw [readField_override h hk]
    by_cases hmem : k.snake ∈ given.map Prod.fst
    · rw [if_pos hmem, if_pos hmem]
      exact hx
    · rw [if_neg hmem, if_neg hmem]
      exact hy

/-- What is left of options that were read are options, with defaults for what was left out. -/
theorem read_without {o : Options} (hnames : ∀ n ∈ names, ∃ k ∈ keys, k.snake = n)
    (h : Options.read platform (.map es) = .valid o) :
    Options.read platform (.map (without es names)) =
      .valid (overlaid names (standard platform) o) := by
  obtain ⟨_, hes, hall, hread⟩ := read_eq_valid_iff.mp h
  cases hes
  refine read_eq_valid_iff.mpr ⟨_, rfl, fun x hx => ?_, ?_⟩
  · obtain ⟨hx, hkept⟩ := List.mem_filter.mp hx
    obtain ⟨s, hs, k, hk, v, hfind⟩ := hall x hx
    refine ⟨s, hs, k, hk, v, ?_⟩
    have hspells : k.Spells x.1 := hs ▸ (Key.spells_of_find? hfind).1
    have hnot : k.snake ∉ names := by
      intro hn
      rw [(concerns_of_spells hnames hk hspells).mpr hn] at hkept
      exact nomatch hkept
    rw [find?_without es hnames hk, if_neg hnot, hfind]
  · refine EachOption.overlaid (eachOption_standard platform) hread fun {α k read d x y} hk hx hy => ?_
    have hleft := find?_without es hnames hk
    by_cases hmem : k.snake ∈ names
    · rw [if_pos hmem] at hleft ⊢
      exact readField_eq_valid_iff.mpr (.inr ⟨hleft, congrArg some hx.symm⟩)
    · rw [if_neg hmem] at hleft ⊢
      rw [readField_congr hleft]
      exact hy

theorem read_override_iff (h : Overrides given) {m : Options} :
    Options.read platform (.map (override es given)) = .valid m ↔
      ∃ a b, Options.read platform (.map (byName given)) = .valid a ∧
        Options.read platform (.map (without es (given.map Prod.fst))) = .valid b ∧
        m = overlaid (given.map Prod.fst) a b := by
  simp only [read_eq_valid_iff, Value.exists_entries?_map, allUsed_override_iff h,
    readFrom_override_iff h]
  constructor
  · rintro ⟨hall, a, b, ha, hb, rfl⟩
    exact ⟨a, b, ⟨allUsed_byName h, ha⟩, ⟨hall, hb⟩, rfl⟩
  · rintro ⟨a, b, ⟨-, ha⟩, ⟨hall, hb⟩, rfl⟩
    exact ⟨hall, a, b, ha, hb, rfl⟩

/-! ## Orders -/

section Orders

variable {given' : List (String × Value)} (h : Overrides given) (hp : given.Perm given')
include h hp

theorem Overrides.perm : Overrides given' :=
  ⟨fun x hx => h.declared x (hp.mem_iff.mpr hx), (hp.map Prod.fst).nodup_iff.mp h.distinct⟩

theorem lookup_perm (name : String) : given'.lookup name = given.lookup name := by
  refine Option.ext fun v => ?_
  rw [Results.lookup_eq_some_iff (h.perm hp).distinct, Results.lookup_eq_some_iff h.distinct]
  exact hp.mem_iff.symm

theorem without_perm (es : Entries) :
    without es (given'.map Prod.fst) = without es (given.map Prod.fst) := by
  refine List.filter_congr fun x _ => congrArg not (Bool.eq_iff_iff.mpr ?_)
  rw [concerns_iff (h.perm hp).known, concerns_iff h.known]
  exact exists_congr fun k => and_congr_right fun _ => and_congr_left fun _ =>
    (hp.map Prod.fst).mem_iff.symm

/-- **The order of overrides does not matter**, not even for what is wrong with the options. -/
theorem read_override_perm (es : Entries) :
    Options.read platform (.map (override es given')) =
      Options.read platform (.map (override es given)) := by
  have h' := h.perm hp
  have hfind : ∀ k ∈ keys, k.find? (override es given') = k.find? (override es given) := by
    intro k hk
    rw [find?_override es h' hk, find?_override es h hk, lookup_perm h hp]
  -- the overrides are used, so that what is not used stands among what is left
  have hextra : ∀ {g : List (String × Value)}, Overrides g →
      (∀ k ∈ keys, k.find? (override es g) = k.find? (override es given)) →
      extraFaults (keys.filterMap fun k => (k.find? (override es given)).map (·.1)) (override es g) =
        extraFaults (keys.filterMap fun k => (k.find? (override es given)).map (·.1))
          (without es (g.map Prod.fst)) := by
    intro g hg hsame
    have hnone : extraFaults (keys.filterMap fun k => (k.find? (override es given)).map (·.1))
        (spelled g) = [] := by
      refine extraFaults_eq_nil_iff.mpr fun x hx => ?_
      obtain ⟨y, hy, rfl⟩ := List.mem_map.mp hx
      obtain ⟨k, hk, hname⟩ := hg.declared y hy
      obtain ⟨v, hv⟩ := exists_lookup (List.mem_map.mpr ⟨y, hy, hname.symm⟩)
      have hmerged := find?_override es hg hk
      rw [hv, hsame k hk] at hmerged
      refine ⟨spelling y.1, rfl, List.mem_filterMap.mpr ⟨k, hk, ?_⟩⟩
      rw [hmerged, ← hname, spelling_snake hk]
      rfl
    rw [override_eq hg, extraFaults_append, hnone, List.append_nil]
  have hfield : ∀ {α : Type} {k : Key} (hk : k ∈ keys) {read : Value → Checked α} {default : Option α},
      readField (override es given') k read default = readField (override es given) k read default :=
    fun hk => readField_congr (hfind _ hk)
  unfold Options.read
  refine readRecord_congr hfind ?_ ?_
  · rw [hextra h' hfind, hextra h fun _ _ => rfl, without_perm h hp]
  · simp (disch := decide) only [hfield]

end Orders

/-! ## The theorem -/

/-- **What overriding does to options, and what is read afterwards.** -/
structure Overridden (platform : String) (es : Entries) (given : List (String × Value)) : Prop where
  /-- Every overridden option stands there once, under the spelling of documents. -/
  once : ∀ k ∈ keys, ∀ v, (k.snake, v) ∈ given →
    (override es given).filter (concerns [k.snake]) = [(.text k.camel, v)]
  /-- The other entries are as they were, in their order. -/
  others : without (override es given) (given.map Prod.fst) = without es (given.map Prod.fst)
  /-- So every other option says what it said. -/
  kept : ∀ k ∈ keys, k.snake ∉ given.map Prod.fst → k.find? (override es given) = k.find? es
  /-- Overriding again changes nothing. -/
  again : override (override es given) given = override es given
  /-- The options can be read exactly if the overrides can be alone, and what is left of the options
      without them; then each option has its value from there. -/
  read : ∀ m, Options.read platform (.map (override es given)) = .valid m ↔
    ∃ a b, Options.read platform (.map (byName given)) = .valid a ∧
      Options.read platform (.map (without es (given.map Prod.fst))) = .valid b ∧
      m = overlaid (given.map Prod.fst) a b
  /-- If the options could be read before, what is not overridden has the value that it had. -/
  still : ∀ o, Options.read platform (.map es) = .valid o →
    ∀ m, Options.read platform (.map (override es given)) = .valid m →
      ∃ a, Options.read platform (.map (byName given)) = .valid a ∧
        m = overlaid (given.map Prod.fst) a o
  /-- The order of the overrides does not matter. -/
  order : ∀ given', given.Perm given' → Options.read platform (.map (override es given')) =
    Options.read platform (.map (override es given))

/-- **Overrides win, and touch nothing else.** The options of the document may be any at all, whatever
    they say about what is overridden. -/
theorem options_overridden (platform : String) (es : Entries) (h : Overrides given) :
    Overridden platform es given where
  once k hk v hmem := by
    have hnone : (without es (given.map Prod.fst)).filter (concerns [k.snake]) = [] := by
      refine List.filter_eq_nil_iff.mpr fun x hx hconcerned => ?_
      have hkept := (List.mem_filter.mp hx).2
      obtain ⟨k', hk', hname, hspells⟩ := (concerns_iff (known_singleton hk)).mp hconcerned
      have hgiven : k'.snake ∈ given.map Prod.fst :=
        (List.mem_singleton.mp hname) ▸ List.mem_map_of_mem hmem
      rw [(concerns_of_spells h.known hk' hspells).mpr hgiven] at hkept
      exact nomatch hkept
    rw [override_eq h, List.filter_append, hnone, filter_spelled h hk hmem]
    rfl
  others := without_override h es
  kept k hk hnot := by
    have hmerged := find?_override es h hk
    rw [lookup_eq_none_iff.mpr hnot] at hmerged
    exact hmerged
  again := by
    rw [override_eq h (override es given), without_override h, ← override_eq h]
  read _ := read_override_iff h
  still o ho m hm := by
    obtain ⟨a, b, ha, hb, rfl⟩ := (read_override_iff h).mp hm
    cases hb.symm.trans (read_without h.known ho)
    exact ⟨a, ha, overlaid_overlaid_right _ a _ o⟩
  order _ hp := read_override_perm h hp es

/-- Options that are spelled either way, one of them illegal. -/
def mixedOptions : Entries :=
  [(.text "results_path", .int 3), (.text "lazy", .bool true), (.text "resultsPath", .null)]

/-- Overrides for the illegal option and for another one. -/
def pathOverrides : List (String × Value) :=
  [("results_path", .text "out"), ("index_file", .bool true)]

/-- The illegal option does not matter once it is overridden. -/
theorem overridden_mixedOptions :
    Overrides pathOverrides ∧ Overridden "\n" mixedOptions pathOverrides := by
  have h : Overrides pathOverrides := by
    constructor
    · decide
    · decide
  exact ⟨h, options_overridden "\n" mixedOptions h⟩

end Scaffold.Schema.Options
