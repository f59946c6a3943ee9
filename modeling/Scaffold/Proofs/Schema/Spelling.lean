import Mathlib.Data.List.Forall2
import Mathlib.Data.List.Pairwise
import Scaffold.Proofs.Schema.Fields

/-!
# `Scaffold.Proofs.Schema.Spelling` — mappings that spell their fields otherwise

A mapping may be respelled: some of its fields get their other spelling, and values may be replaced by
like ones, each in its place. Only a field that is given once may change its spelling, since of two
spellings one counts more. The fields of a respelled mapping say alike what they said
(`RespelledEntries.find?`), and the same keys are used (`RespelledEntries.allUsed_iff`).

## Contents
- **Lists and options.** `exists_of_mem_forall₂`, `pairwise_of_forall₂`, `Alike`,
  `Alike.exists_iff`.
- **Fields given once.** `GivenOnce`, `givenOnce_of_nodup`, `find?_of_givenOnce`.
- **Respelled mappings.** `RespelledEntry`, `RespelledEntries`, `RespelledEntries.symm`,
  `RespelledEntries.supply`.
- **Fields.** `RespelledEntries.lookup`, `RespelledEntries.find?`, `RespelledEntries.allUsed_iff`.
-/

namespace Scaffold.Schema

/-! ## Lists and options -/

section Lists

variable {α β : Type} {R : α → β → Prop} {xs : List α} {ys : List β}

/-- Every member of a list has its match in the other one. -/
theorem exists_of_mem_forall₂ (h : List.Forall₂ R xs ys) : ∀ y ∈ ys, ∃ x ∈ xs, R x y := by
  induction h with
  | nil => exact fun y hy => absurd hy List.not_mem_nil
  | cons hhead _ ih =>
      refine List.forall_mem_cons.mpr ⟨⟨_, List.mem_cons_self, hhead⟩, fun y hy => ?_⟩
      obtain ⟨x, hx, hxy⟩ := ih y hy
      exact ⟨x, List.mem_cons_of_mem _ hx, hxy⟩

/-- At most one member of a list has a property, if the matching members of the other list have one. -/
theorem pairwise_of_forall₂ {p : α → Prop} {q : β → Prop} (h : List.Forall₂ R xs ys)
    (hpq : ∀ x y, R x y → q y → p x) (hxs : xs.Pairwise fun a b => ¬ (p a ∧ p b)) :
    ys.Pairwise fun a b => ¬ (q a ∧ q b) := by
  induction h with
  | nil => exact .nil
  | cons hhead htail ih =>
      obtain ⟨hfirst, hrest⟩ := List.pairwise_cons.mp hxs
      refine List.pairwise_cons.mpr ⟨fun b hb hq => ?_, ih hrest⟩
      obtain ⟨a, ha, hab⟩ := exists_of_mem_forall₂ htail b hb
      exact hfirst a ha ⟨hpq _ _ hhead hq.1, hpq _ _ hab hq.2⟩

/-- Nothing on both sides, or something alike on both. -/
def Alike (R : α → β → Prop) (a : Option α) (b : Option β) : Prop :=
  a = none ∧ b = none ∨ ∃ x y, a = some x ∧ b = some y ∧ R x y

theorem Alike.exists_iff {a : Option α} {b : Option β} {P : α → Prop} {Q : β → Prop} (h : Alike R a b)
    (hiff : ∀ x y, R x y → (P x ↔ Q y)) : (∃ x, a = some x ∧ P x) ↔ ∃ y, b = some y ∧ Q y := by
  rcases h with ⟨rfl, rfl⟩ | ⟨x, y, rfl, rfl, hxy⟩
  · simp
  · simp [hiff x y hxy]

end Lists

variable {keys : List Key} {k : Key} {es es' : Entries} {x y : Value × Value}

/-! ## Fields given once -/

/-- The mapping gives a field at most once, under whatever spelling. -/
def GivenOnce (k : Key) (es : Entries) : Prop :=
  es.Pairwise fun x y => ¬ (k.Spells x.1 ∧ k.Spells y.1)

/-- A mapping whose keys are all different gives a field once if it does not have both spellings. -/
theorem givenOnce_of_nodup (hkeys : (es.map Prod.fst).Nodup)
    (h : es.lookup k.camel = none ∨ es.lookup k.snake = none) : GivenOnce k es := by
  refine (List.pairwise_map.mp hkeys).imp_of_mem fun {x y} hx hy hne => ?_
  rintro ⟨hsx, hsy⟩
  rcases h with h | h
  · have habsent := Entries.lookup_eq_none_iff.mp h
    exact hne ((hsx.resolve_left (habsent x hx)).trans (hsy.resolve_left (habsent y hy)).symm)
  · have habsent := Entries.lookup_eq_none_iff.mp h
    exact hne ((hsx.resolve_right (habsent x hx)).trans (hsy.resolve_right (habsent y hy)).symm)

/-- What gives a field that is given once is what the field says. -/
theorem find?_of_givenOnce (h : GivenOnce k es) (hx : x ∈ es) (hspells : k.Spells x.1) :
    ∃ s, x.1 = .text s ∧ k.find? es = some (s, x.2) := by
  cases hfind : k.find? es with
  | none => exact absurd hspells (Key.find?_eq_none_iff.mp hfind x hx)
  | some entry =>
      obtain ⟨s, v⟩ := entry
      obtain ⟨hs, hmem⟩ := Key.spells_of_find? hfind
      have hsymm : Std.Symm fun x y : Value × Value => ¬ (k.Spells x.1 ∧ k.Spells y.1) :=
        ⟨fun _ _ hno hboth => hno hboth.symm⟩
      have hsame : (.text s, v) = x := by
        by_contra hne
        exact List.Pairwise.forall h hmem hx hne ⟨hs, hspells⟩
      exact ⟨s, by rw [← hsame], by rw [← hsame]⟩

/-! ## Respelled mappings -/

/-- An entry in place of another one: the same, or one that gives the same field a like value. Its
    spelling may be the other one if the field is given once. -/
def RespelledEntry (keys : List Key) (R : Key → Value → Value → Prop) (es : Entries)
    (x y : Value × Value) : Prop :=
  x = y ∨ ∃ k ∈ keys, k.Spells x.1 ∧ k.Spells y.1 ∧ R k x.2 y.2 ∧ (x.1 = y.1 ∨ GivenOnce k es)

/-- A mapping in place of another one, entry by entry. -/
def RespelledEntries (keys : List Key) (R : Key → Value → Value → Prop) (es es' : Entries) : Prop :=
  List.Forall₂ (RespelledEntry keys R es) es es'

section Respelled

variable {R : Key → Value → Value → Prop} (hkeys : KeysApart keys)
include hkeys

theorem RespelledEntry.spells_iff (h : RespelledEntry keys R es x y) (hk : k ∈ keys) :
    k.Spells x.1 ↔ k.Spells y.1 := by
  rcases h with rfl | ⟨k', hk', hx, hy, -, -⟩
  · exact Iff.rfl
  · constructor
    · intro h
      rw [hkeys.unique hk hk' h hx]
      exact hy
    · intro h
      rw [hkeys.unique hk hk' h hy]
      exact hx

/-- What an entry says of its field is replaced by something like it. -/
theorem RespelledEntry.value (hrefl : ∀ v, R k v v) (h : RespelledEntry keys R es x y) (hk : k ∈ keys)
    (hx : k.Spells x.1) : R k x.2 y.2 := by
  rcases h with rfl | ⟨k', hk', hx', -, hvalue, -⟩
  · exact hrefl _
  · rw [hkeys.unique hk hk' hx hx']
    exact hvalue

/-- A field that is given more than once keeps its spelling. -/
theorem RespelledEntry.key (h : RespelledEntry keys R es x y) (hk : k ∈ keys) (hx : k.Spells x.1)
    (honce : ¬ GivenOnce k es) : x.1 = y.1 := by
  rcases h with rfl | ⟨k', hk', hx', -, -, hkey⟩
  · rfl
  · rw [← hkeys.unique hk hk' hx hx'] at hkey
    exact hkey.resolve_right honce

theorem RespelledEntries.givenOnce (h : RespelledEntries keys R es es') (hk : k ∈ keys)
    (honce : GivenOnce k es) : GivenOnce k es' :=
  pairwise_of_forall₂ (p := fun x : Value × Value => k.Spells x.1)
    (q := fun x : Value × Value => k.Spells x.1) h
    (fun _ _ hxy hy => (hxy.spells_iff hkeys hk).mpr hy) honce

theorem RespelledEntries.symm (h : RespelledEntries keys R es es') :
    RespelledEntries keys (fun k v v' => R k v' v) es' es := by
  refine (List.Forall₂.flip h).imp fun y x hxy => ?_
  rcases hxy with rfl | ⟨k, hk, hx, hy, hvalue, hkey⟩
  · exact .inl rfl
  · exact .inr ⟨k, hk, hy, hx, hvalue, hkey.imp Eq.symm (RespelledEntries.givenOnce hkeys h hk)⟩

/-! ## Fields -/

/-- What stands under one spelling of a field that keeps its spellings. -/
theorem RespelledEntries.lookup (hrefl : ∀ v, R k v v) (h : RespelledEntries keys R es es')
    (hk : k ∈ keys) (honce : ¬ GivenOnce k es) {s : String} (hs : k.Spells (.text s)) :
    Alike (R k) (es.lookup s) (es'.lookup s) := by
  -- how often the field is given is said of all entries, so the induction cannot carry it
  have hall : List.Forall₂ (fun x y : Value × Value => (x.1 = .text s ↔ y.1 = .text s) ∧
      (x.1 = .text s → R k x.2 y.2)) es es' := by
    refine List.Forall₂.imp (fun x y hxy => ?_) h
    have hkey : k.Spells x.1 → x.1 = y.1 := fun hx => hxy.key hkeys hk hx honce
    refine ⟨⟨fun hx => ?_, fun hy => ?_⟩, fun hx => hxy.value hkeys hrefl hk (hx ▸ hs)⟩
    · rw [← hkey (hx ▸ hs)]
      exact hx
    · rw [hkey ((hxy.spells_iff hkeys hk).mpr (hy ▸ hs))]
      exact hy
  clear h honce
  induction hall with
  | nil => exact .inl ⟨rfl, rfl⟩
  | @cons x y _ _ hhead _ ih =>
      obtain ⟨a, v⟩ := x
      obtain ⟨b, w⟩ := y
      by_cases ha : a = .text s
      · have hb : b = .text s := hhead.1.mp ha
        rw [ha, hb, Entries.lookup_cons_self, Entries.lookup_cons_self]
        exact .inr ⟨v, w, rfl, rfl, hhead.2 ha⟩
      · have hb : b ≠ .text s := mt hhead.1.mpr ha
        rw [Entries.lookup_cons_of_ne ha, Entries.lookup_cons_of_ne hb]
        exact ih

/-- A field that keeps its spellings is found under the same one. -/
theorem RespelledEntries.find?_kept (hrefl : ∀ v, R k v v) (h : RespelledEntries keys R es es')
    (hk : k ∈ keys) (honce : ¬ GivenOnce k es) :
    Alike (fun e e' => e.1 = e'.1 ∧ R k e.2 e'.2) (k.find? es) (k.find? es') := by
  have hcamel := h.lookup hkeys hrefl hk honce (s := k.camel) (.inl rfl)
  have hsnake := h.lookup hkeys hrefl hk honce (s := k.snake) (.inr rfl)
  unfold Key.find?
  rcases hcamel with ⟨hnone, hnone'⟩ | ⟨v, w, hv, hw, hvalue⟩
  · rw [hnone, hnone']
    rcases hsnake with ⟨hnone, hnone'⟩ | ⟨v, w, hv, hw, hvalue⟩
    · exact .inl ⟨by rw [hnone]; rfl, by rw [hnone']; rfl⟩
    · exact .inr ⟨(k.snake, v), (k.snake, w), by rw [hv]; rfl, by rw [hw]; rfl, rfl, hvalue⟩
  · exact .inr ⟨(k.camel, v), (k.camel, w), by rw [hv], by rw [hw], rfl, hvalue⟩

/-- A field that is given once is found by any entry that gives it. -/
theorem RespelledEntries.find?_once (h : RespelledEntries keys R es es') (hk : k ∈ keys)
    (honce : GivenOnce k es) (hx : x ∈ es) (hspells : k.Spells x.1) :
    ∃ y s, y ∈ es' ∧ RespelledEntry keys R es x y ∧ k.find? es' = some (s, y.2) := by
  obtain ⟨y, hy, hxy⟩ := exists_of_mem_forall₂ h.flip x hx
  obtain ⟨s, -, hfind⟩ := find?_of_givenOnce (h.givenOnce hkeys hk honce) hy
    ((RespelledEntry.spells_iff hkeys hxy hk).mp hspells)
  exact ⟨y, s, hy, hxy, hfind⟩

/-- **A field of a respelled mapping says something like what it said.** -/
theorem RespelledEntries.find? (hrefl : ∀ v, R k v v) (h : RespelledEntries keys R es es')
    (hk : k ∈ keys) : Alike (fun e e' => R k e.2 e'.2) (k.find? es) (k.find? es') := by
  by_cases honce : GivenOnce k es
  · cases hfind : k.find? es with
    | none =>
        have hnone : k.find? es' = none := by
          refine Key.find?_eq_none_iff.mpr fun y hy hspells => ?_
          obtain ⟨x, hx, hxy⟩ := exists_of_mem_forall₂ h y hy
          exact Key.find?_eq_none_iff.mp hfind x hx ((hxy.spells_iff hkeys hk).mpr hspells)
        exact .inl ⟨rfl, hnone⟩
    | some entry =>
        obtain ⟨hspells, hmem⟩ := Key.spells_of_find? hfind
        obtain ⟨y, s, -, hxy, hfind'⟩ := h.find?_once hkeys hk honce hmem hspells
        exact .inr ⟨_, _, rfl, hfind', hxy.value hkeys hrefl hk hspells⟩
  · rcases h.find?_kept hkeys hrefl hk honce with hnone | ⟨e, e', he, he', -, hvalue⟩
    · exact .inl hnone
    · exact .inr ⟨e, e', he, he', hvalue⟩

theorem RespelledEntries.allUsed (h : RespelledEntries keys R es es') (hall : AllUsed keys es) :
    AllUsed keys es' := by
  have hany : RespelledEntries keys (fun _ _ _ => True) es es' :=
    List.Forall₂.imp (fun x y hxy => hxy.imp_right fun ⟨k, hk, hx, hy, _, hkey⟩ =>
      ⟨k, hk, hx, hy, trivial, hkey⟩) h
  intro y hy
  obtain ⟨x, hx, hxy⟩ := exists_of_mem_forall₂ hany y hy
  obtain ⟨s, hs, k, hk, v, hfind⟩ := hall x hx
  have hspells : k.Spells x.1 := hs ▸ (Key.spells_of_find? hfind).1
  by_cases honce : GivenOnce k es
  · obtain ⟨t, ht, hfind'⟩ := find?_of_givenOnce (hany.givenOnce hkeys hk honce) hy
      ((hxy.spells_iff hkeys hk).mp hspells)
    exact ⟨t, ht, k, hk, y.2, hfind'⟩
  · rcases hany.find?_kept hkeys (fun _ => trivial) hk honce with ⟨hnone, -⟩ | ⟨e, e', he, he', hkey, -⟩
    · exact nomatch hfind.symm.trans hnone
    · cases hfind.symm.trans he
      refine ⟨s, (hxy.key hkeys hk hspells honce).symm.trans hs, k, hk, e'.2, ?_⟩
      exact he'.trans (congrArg some (Prod.ext hkey.symm rfl))

/-- **A respelled mapping uses its keys as before.** -/
theorem RespelledEntries.allUsed_iff (h : RespelledEntries keys R es es') :
    AllUsed keys es ↔ AllUsed keys es' :=
  ⟨RespelledEntries.allUsed hkeys h, RespelledEntries.allUsed hkeys (h.symm hkeys)⟩

/-- The same field may be supplied on both sides. -/
theorem RespelledEntries.supply (hrefl : ∀ v, R k v v) (h : RespelledEntries keys R es es')
    (hk : k ∈ keys) (v : Value) :
    RespelledEntries keys R (Schema.supply k v es) (Schema.supply k v es') := by
  rcases h.find? hkeys hrefl hk with ⟨hnone, hnone'⟩ | ⟨e, e', he, he', -⟩
  · rw [supply_eq_append hnone, supply_eq_append hnone']
    have hall := (List.forall₂_and_left _ _).mpr ⟨Key.find?_eq_none_iff.mp hnone, h⟩
    refine List.rel_append (hall.imp fun x y hxy => ?_) (.cons (.inl rfl) .nil)
    refine hxy.2.imp_right fun ⟨k', hk', hx, hy, hvalue, hkey⟩ => ⟨k', hk', hx, hy, hvalue, ?_⟩
    -- the new entry gives another field than those that are there
    refine hkey.imp_right fun honce => List.pairwise_append.mpr ⟨honce, List.pairwise_singleton _ _, ?_⟩
    rintro a - b hb ⟨-, hspells⟩
    rw [List.mem_singleton.mp hb] at hspells
    rw [hkeys.unique hk' hk hspells (.inr rfl)] at hx
    exact hxy.1 hx
  · rw [supply_eq_self he, supply_eq_self he']
    exact h

end Respelled

end Scaffold.Schema
