import Mathlib.Data.List.Forall2

/-!
# `Scaffold.Proofs.Results` — results of what may fail

What is put together from steps succeeds only if each step does. Texts, changes of a disk and whole
runs are put together so; taking them apart is the same everywhere, and done here. So is looking up what
stands in a table.

## Contents
- **Steps.** `bind_eq_ok`, `map_eq_ok`, `map_eq_error`, `bind_eq_error`, `mapError_eq_error`,
  `mapError_eq_ok`, `exists_eq_ok`, `cases_of_map_eq`.
- **Lists.** `mapM_cons_eq_ok`, `mapM_eq_ok`, `map_eq_map_ok_iff`, `exists_mapM`,
  `exists_of_mem_mapM`, `exists_mem_of_mapM`, `mem_mapM_iff`, `forall_mem_mapM`,
  `forall_mem_flatten_mapM`.
- **Tables.** `lookup_eq_some_iff`.
-/

namespace Scaffold.Results

variable {α β ε : Type} {f : α → Except ε β} {xs : List α} {ys : List β}

theorem bind_eq_ok {x : Except ε α} {b : β} :
    (x >>= f) = .ok b ↔ ∃ a, x = .ok a ∧ f a = .ok b := by
  cases x with
  | error e =>
      constructor
      · intro h
        exact nomatch h
      · rintro ⟨a, h, -⟩
        exact nomatch h
  | ok a =>
      constructor
      · exact fun h => ⟨a, rfl, h⟩
      · rintro ⟨a', h, hf⟩
        cases h
        exact hf

theorem map_eq_ok {g : α → β} {x : Except ε α} {b : β} :
    x.map g = .ok b ↔ ∃ a, x = .ok a ∧ g a = b := by
  cases x with
  | error e =>
      constructor
      · intro h
        exact nomatch h
      · rintro ⟨a, h, -⟩
        exact nomatch h
  | ok a =>
      constructor
      · exact fun h => ⟨a, rfl, Except.ok.inj h⟩
      · rintro ⟨a', h, rfl⟩
        cases h
        rfl

theorem map_eq_error {g : α → β} {x : Except ε α} {e : ε} : x.map g = .error e ↔ x = .error e := by
  cases x with
  | error e' =>
      constructor
      · intro h
        cases h
        rfl
      · rintro ⟨⟩
        rfl
  | ok a =>
      constructor
      · intro h
        exact nomatch h
      · intro h
        exact nomatch h

theorem bind_eq_error {x : Except ε α} {e : ε} :
    x.bind f = .error e ↔ x = .error e ∨ ∃ a, x = .ok a ∧ f a = .error e := by
  cases x with
  | error e' =>
      constructor
      · intro h
        cases h
        exact .inl rfl
      · rintro (h | ⟨a, h, -⟩)
        · cases h
          rfl
        · exact nomatch h
  | ok a =>
      constructor
      · exact fun h => .inr ⟨a, rfl, h⟩
      · rintro (h | ⟨a', h, hf⟩)
        · exact nomatch h
        · cases h
          exact hf

theorem mapError_eq_error {δ : Type} {g : ε → δ} {x : Except ε α} {d : δ} :
    x.mapError g = .error d ↔ ∃ e, x = .error e ∧ g e = d := by
  cases x with
  | error e =>
      constructor
      · intro h
        exact ⟨e, rfl, Except.error.inj h⟩
      · rintro ⟨e', h, rfl⟩
        cases h
        rfl
  | ok a =>
      constructor
      · intro h
        exact nomatch h
      · rintro ⟨e, h, -⟩
        exact nomatch h

theorem mapError_eq_ok {δ : Type} {g : ε → δ} {x : Except ε α} {a : α} :
    x.mapError g = .ok a ↔ x = .ok a := by
  cases x with
  | error e =>
      constructor
      · intro h
        cases h
      · intro h
        cases h
  | ok b =>
      constructor
      · intro h
        cases h
        rfl
      · rintro ⟨⟩
        rfl

theorem eq_ok_of_toOption {x : Except ε α} {a : α} (h : x.toOption = some a) : x = .ok a := by
  cases x with
  | error e => exact nomatch h
  | ok b => exact congrArg _ (Option.some.inj h)

theorem exists_eq_ok {x : Except ε α} (h : x.toOption.isSome = true) : ∃ a, x = .ok a := by
  obtain ⟨a, ha⟩ := Option.isSome_iff_exists.mp h
  exact ⟨a, eq_ok_of_toOption ha⟩

/-- Two results that are the same but for what they hold: both fail in the same way, or neither. -/
theorem cases_of_map_eq {δ : Type} {x : Except ε α} {y : Except ε β} {g : α → δ} {k : β → δ}
    (h : x.map g = y.map k) :
    (∃ e, x = .error e ∧ y = .error e) ∨ ∃ a b, x = .ok a ∧ y = .ok b ∧ g a = k b := by
  cases x with
  | error e =>
      cases y with
      | error e' =>
          cases h
          exact .inl ⟨e, rfl, rfl⟩
      | ok b => exact nomatch h
  | ok a =>
      cases y with
      | error e' => exact nomatch h
      | ok b => exact .inr ⟨a, b, rfl, rfl, Except.ok.inj h⟩

theorem mapM_cons_eq_ok {x : α} :
    (x :: xs).mapM f = .ok ys ↔ ∃ y zs, f x = .ok y ∧ xs.mapM f = .ok zs ∧ ys = y :: zs := by
  rw [List.mapM_cons, bind_eq_ok]
  constructor
  · rintro ⟨y, hy, h⟩
    obtain ⟨zs, hzs, h⟩ := bind_eq_ok.mp h
    cases h
    exact ⟨y, zs, hy, hzs, rfl⟩
  · rintro ⟨y, zs, hy, hzs, rfl⟩
    exact ⟨y, hy, bind_eq_ok.mpr ⟨zs, hzs, rfl⟩⟩

/-- **A list is mapped one by one.** -/
theorem mapM_eq_ok : xs.mapM f = .ok ys ↔ List.Forall₂ (fun x y => f x = .ok y) xs ys := by
  induction xs generalizing ys with
  | nil =>
      rw [List.mapM_nil, List.forall₂_nil_left_iff]
      constructor
      · intro h
        cases h
        rfl
      · rintro rfl
        rfl
  | cons x xs ih =>
      rw [mapM_cons_eq_ok, List.forall₂_cons_left_iff]
      constructor
      · rintro ⟨y, zs, hy, hzs, rfl⟩
        exact ⟨y, zs, hy, ih.mp hzs, rfl⟩
      · rintro ⟨y, zs, hy, hzs, rfl⟩
        exact ⟨y, zs, hy, ih.mpr hzs, rfl⟩

theorem map_eq_map_ok_iff : xs.map f = ys.map .ok ↔ xs.mapM f = .ok ys := by
  have hall : List.Forall₂ Eq (xs.map f) (ys.map Except.ok) ↔ xs.map f = ys.map .ok := by
    rw [List.forall₂_eq_eq_eq]
  rw [← hall, List.forall₂_map_left_iff, List.forall₂_map_right_iff, mapM_eq_ok]

theorem exists_mapM (h : ∀ x ∈ xs, ∃ y, f x = .ok y) : ∃ ys, xs.mapM f = .ok ys := by
  induction xs with
  | nil => exact ⟨[], rfl⟩
  | cons x xs ih =>
      obtain ⟨y, hy⟩ := h x List.mem_cons_self
      obtain ⟨ys, hys⟩ := ih fun z hz => h z (List.mem_cons_of_mem _ hz)
      exact ⟨y :: ys, mapM_cons_eq_ok.mpr ⟨y, ys, hy, hys, rfl⟩⟩

/-- What a list is mapped to comes from its members. -/
theorem exists_of_mem_mapM (h : xs.mapM f = .ok ys) : ∀ y ∈ ys, ∃ x ∈ xs, f x = .ok y := by
  have hall := mapM_eq_ok.mp h
  clear h
  induction hall with
  | nil => exact fun y hy => absurd hy List.not_mem_nil
  | cons hx _ ih =>
      intro y hy
      rcases List.mem_cons.mp hy with rfl | hy
      · exact ⟨_, List.mem_cons_self, hx⟩
      · obtain ⟨x, hmem, hy⟩ := ih y hy
        exact ⟨x, List.mem_cons_of_mem _ hmem, hy⟩

/-- Every member is mapped to something, which is a member then. -/
theorem exists_mem_of_mapM (h : xs.mapM f = .ok ys) : ∀ x ∈ xs, ∃ y ∈ ys, f x = .ok y := by
  have hall := mapM_eq_ok.mp h
  clear h
  induction hall with
  | nil => exact fun x hx => absurd hx List.not_mem_nil
  | cons hz _ ih =>
      intro x hx
      rcases List.mem_cons.mp hx with rfl | hx
      · exact ⟨_, List.mem_cons_self, hz⟩
      · obtain ⟨y, hy, hxy⟩ := ih x hx
        exact ⟨y, List.mem_cons_of_mem _ hy, hxy⟩

theorem mem_mapM_iff (h : xs.mapM f = .ok ys) {y : β} : y ∈ ys ↔ ∃ x ∈ xs, f x = .ok y := by
  constructor
  · exact exists_of_mem_mapM h y
  · rintro ⟨x, hx, hxy⟩
    obtain ⟨z, hz, hxz⟩ := exists_mem_of_mapM h x hx
    cases hxy.symm.trans hxz
    exact hz

/-- What holds of everything that a member is mapped to holds of everything that the list is. -/
theorem forall_mem_mapM {P : β → Prop} (h : xs.mapM f = .ok ys)
    (hP : ∀ x ∈ xs, ∀ y, f x = .ok y → P y) : ∀ y ∈ ys, P y := by
  intro y hy
  obtain ⟨x, hx, hxy⟩ := exists_of_mem_mapM h y hy
  exact hP x hx y hxy

theorem forall_mem_flatten_mapM {g : α → Except ε (List β)} {yss : List (List β)} {P : β → Prop}
    (h : xs.mapM g = .ok yss) (hP : ∀ x ∈ xs, ∀ ys, g x = .ok ys → ∀ y ∈ ys, P y) :
    ∀ y ∈ yss.flatten, P y := by
  intro y hy
  obtain ⟨ys, hys, hy⟩ := List.mem_flatten.mp hy
  exact forall_mem_mapM h hP ys hys y hy

/-- Where all keys of a table differ, whatever stands in it is found. -/
theorem lookup_eq_some_iff {table : List (String × α)} (h : (table.map Prod.fst).Nodup) {key : String}
    {a : α} : table.lookup key = some a ↔ (key, a) ∈ table := by
  rw [List.lookup_eq_some_iff]
  constructor
  · rintro ⟨before, after, rfl, -⟩
    exact List.mem_append_right before List.mem_cons_self
  · intro hmem
    obtain ⟨before, after, rfl⟩ := List.append_of_mem hmem
    refine ⟨before, after, rfl, fun x hx => bne_iff_ne.mpr fun hkey => ?_⟩
    rw [List.map_append, List.nodup_append] at h
    exact h.2.2 x.1 (List.mem_map_of_mem hx) key List.mem_cons_self hkey.symm

end Scaffold.Results
