import Scaffold.Proofs.Disk.Directories

/-!
# `Scaffold.Proofs.Disk.Writing` — writing files one after another

What was written is read back until something else is written to the same place (`read_writeAll`).
Where no link is in the way, a path is the place that it leads to (`locate_linkFree`).

## Contents
- **Files.** `write_eq_ok`, `writeAll`, `grown_writeAll`, `exists_file_writeAll`, `find?_writeAll`,
  `read_writeAll`.
- **Paths without links.** `LinkFree`, `locate_linkFree`, `read_of_linkFree`.
-/

namespace Scaffold.Disk

/-! ## Files -/

theorem write_eq_ok {d d' : Disk} {p : Path} {text : String} (h : d.write p text = .ok d') :
    ∃ q, d.locate true p = .ok q ∧ d.find? q ≠ some .directory ∧
      d' = d.put q (.file (Text.Utf8.encode text)) := by
  unfold write at h
  split at h
  · exact absurd h (by simp)
  · split at h
    · exact absurd h (by simp)
    · rename_i q hq
      split at h
      · exact absurd h (by simp)
      · rename_i hdir
        exact ⟨q, hq, hdir, (Except.ok.inj h).symm⟩

/-- Writes texts to paths, one after another. -/
def writeAll (d : Disk) : List (Path × String) → Except Failure Disk
  | [] => .ok d
  | (p, text) :: r => (d.write p text).bind fun d => writeAll d r

theorem writeAll_cons_eq_ok {d d' : Disk} {p : Path} {text : String} {fs : List (Path × String)} :
    d.writeAll ((p, text) :: fs) = .ok d' ↔
      ∃ d₁, d.write p text = .ok d₁ ∧ d₁.writeAll fs = .ok d' :=
  Results.bind_eq_ok

theorem writeAll_append (d : Disk) (a b : List (Path × String)) :
    d.writeAll (a ++ b) = (d.writeAll a).bind fun d => d.writeAll b := by
  induction a generalizing d with
  | nil => rfl
  | cons x a ih =>
      obtain ⟨p, text⟩ := x
      rw [List.cons_append, writeAll, writeAll]
      cases d.write p text with
      | error f => rfl
      | ok d => exact ih d

theorem writeAll_append_eq_ok {d d' : Disk} {a b : List (Path × String)} :
    d.writeAll (a ++ b) = .ok d' ↔ ∃ d₁, d.writeAll a = .ok d₁ ∧ d₁.writeAll b = .ok d' := by
  rw [writeAll_append]
  exact Results.bind_eq_ok

/-- Nothing is written behind a file that cannot be. -/
theorem writeAll_eq_error {d d₁ : Disk} {a b : List (Path × String)} {p : Path} {text : String}
    {failure : Failure} (ha : d.writeAll a = .ok d₁) (hfail : d₁.write p text = .error failure) :
    d.writeAll (a ++ (p, text) :: b) = .error failure := by
  rw [writeAll_append, ha]
  show (d₁.write p text).bind _ = _
  rw [hfail]
  rfl

/-- Writing one file, on a tree. -/
theorem grown_write {d d' : Disk} (ht : IsTree d) {p : Path} {text : String}
    (h : d.write p text = .ok d') : Grown d d' ∧ IsTree d' := by
  obtain ⟨q, hq, hdir, rfl⟩ := write_eq_ok h
  -- links were followed, so a file is written over nothing or over a file
  have hend := endsAt_locate ht hq
  unfold EndsAt at hend
  refine ⟨grown_put_file hdir ?_, isTree_put ht hdir ?_⟩
  · intro t hl
    rw [hl] at hend
    exact absurd hend (by simp)
  · cases hf : d.find? q with
    | none =>
        rw [hf] at hend
        exact hend
    | some e => exact ht q (by simp [hf])

theorem grown_writeAll {d d' : Disk} (ht : IsTree d) {fs : List (Path × String)}
    (h : d.writeAll fs = .ok d') : Grown d d' ∧ IsTree d' := by
  induction fs generalizing d with
  | nil =>
      cases h
      exact ⟨.refl _, ht⟩
  | cons x fs ih =>
      obtain ⟨d₁, hw, hrest⟩ := writeAll_cons_eq_ok.mp h
      obtain ⟨hg, ht₁⟩ := grown_write ht hw
      obtain ⟨hg', ht'⟩ := ih ht₁ hrest
      exact ⟨hg.trans hg', ht'⟩

/-- Where a file was written, its path leads at the end as well. -/
theorem exists_locate_writeAll {d d' : Disk} (ht : IsTree d) {fs : List (Path × String)}
    (h : d.writeAll fs = .ok d') : ∀ x ∈ fs, ∃ q, d'.locate true x.1 = .ok q := by
  induction fs generalizing d with
  | nil => exact fun _ hx => absurd hx List.not_mem_nil
  | cons x fs ih =>
      obtain ⟨d₁, hw, hrest⟩ := writeAll_cons_eq_ok.mp h
      obtain ⟨hg, ht₁⟩ := grown_write ht hw
      intro y hy
      rcases List.mem_cons.mp hy with rfl | hy
      · obtain ⟨q, hq, -, -⟩ := write_eq_ok hw
        exact ⟨q, locate_of_grown (hg.trans (grown_writeAll ht₁ hrest).1) hq⟩
      · exact ih ht₁ hrest y hy

/-- Where its path leads, there is a file at the end. -/
theorem exists_file_writeAll {d d' : Disk} (ht : IsTree d) {fs : List (Path × String)}
    (h : d.writeAll fs = .ok d') : ∀ x ∈ fs, ∀ q, d'.locate true x.1 = .ok q →
      ∃ bytes, d'.find? q = some (.file bytes) := by
  induction fs generalizing d with
  | nil => exact fun _ hx => absurd hx List.not_mem_nil
  | cons x fs ih =>
      obtain ⟨d₁, hw, hrest⟩ := writeAll_cons_eq_ok.mp h
      obtain ⟨hg, ht₁⟩ := grown_write ht hw
      have hlater := (grown_writeAll ht₁ hrest).1
      intro y hy q hq
      rcases List.mem_cons.mp hy with rfl | hy
      · obtain ⟨r, hr, hdir, rfl⟩ := write_eq_ok hw
        cases (locate_of_grown (hg.trans hlater) hr).symm.trans hq
        refine (hlater q).stays.2.2 (Text.Utf8.encode y.2) ?_
        rw [find?_put (ne_nil_of_find? hdir), if_pos rfl]
      · exact ih ht₁ hrest y hy q hq

/-- Files written to other places leave a place as it is. -/
theorem find?_writeAll {d d' : Disk} (ht : IsTree d) {fs : List (Path × String)}
    (h : d.writeAll fs = .ok d') {q : Path} (hq : ∀ x ∈ fs, d'.locate true x.1 ≠ .ok q) :
    d'.find? q = d.find? q := by
  induction fs generalizing d with
  | nil =>
      cases h
      rfl
  | cons x fs ih =>
      obtain ⟨d₁, hw, hrest⟩ := writeAll_cons_eq_ok.mp h
      obtain ⟨hg, ht₁⟩ := grown_write ht hw
      have hsame := ih ht₁ hrest fun y hy => hq y (List.mem_cons_of_mem _ hy)
      obtain ⟨r, hr, hdir, rfl⟩ := write_eq_ok hw
      -- later files do not change where the path of this one leads
      have hr' := locate_of_grown (hg.trans (grown_writeAll ht₁ hrest).1) hr
      have hne : q ≠ r := by
        rintro rfl
        exact hq _ List.mem_cons_self hr'
      rw [hsame, find?_put (ne_nil_of_find? hdir), if_neg hne]

/-- **What was written is there** at the end, unless a later file went to the same place. -/
theorem read_writeAll {d d' : Disk} (ht : IsTree d) {pre post : List (Path × String)} {p : Path}
    {text : String} (h : d.writeAll (pre ++ (p, text) :: post) = .ok d')
    (hpost : ∀ x ∈ post, d'.locate true x.1 ≠ d'.locate true p) (shown : String) :
    d'.read p shown = .ok (Text.Utf8.encode text) := by
  obtain ⟨d₁, hpre, h⟩ := writeAll_append_eq_ok.mp h
  obtain ⟨d₂, hw, hrest⟩ := writeAll_cons_eq_ok.mp h
  obtain ⟨hg, ht₂⟩ := grown_write (grown_writeAll ht hpre).2 hw
  obtain ⟨q, hq, hdir, rfl⟩ := write_eq_ok hw
  -- the path leads to the same place after the later files
  have hq' : d'.locate true p = .ok q :=
    locate_of_grown (hg.trans (grown_writeAll ht₂ hrest).1) hq
  rw [hq'] at hpost
  have hfind := find?_writeAll ht₂ hrest hpost
  rw [find?_put (ne_nil_of_find? hdir), if_pos rfl] at hfind
  have hstatus := status_eq_ok.mpr ⟨q, hq', hfind⟩
  unfold read
  rw [hstatus]

/-! ## Paths without links -/

/-- No link lies on the way to a path or below it. -/
def LinkFree (d : Disk) (root : Path) : Prop :=
  ∀ p t, d.find? p = some (.link t) → ¬ p <+: root ∧ ¬ root <+: p

/-- On a disk without links there is none anywhere. -/
theorem linkFree_of_entries {d : Disk} {root : Path} (h : ∀ x ∈ d.entries, ∀ t, x.2 ≠ .link t) :
    LinkFree d root := by
  intro p t hp
  unfold find? at hp
  split at hp
  · exact nomatch hp
  · obtain ⟨before, after, hentries, -⟩ := List.lookup_eq_some_iff.mp hp
    exact absurd rfl (h (p, .link t) (hentries ▸ List.mem_append_right before List.mem_cons_self) t)

theorem linkFree_nil (root : Path) : LinkFree ⟨[]⟩ root :=
  linkFree_of_entries fun _ hx => absurd hx List.not_mem_nil

theorem LinkFree.of_grown {d d' : Disk} {root : Path} (h : LinkFree d root) (hg : Grown d d') :
    LinkFree d' root := fun p t hl => h p t (hg.link hl)

theorem Arrives.linkFree {d : Disk} {root : Path} (hfree : LinkFree d root) {links : Nat}
    {here q : Path} {rest : List String} (h : Arrives d true links here rest q)
    (hroot : root <+: here ++ rest) (hup : ∀ s ∈ rest, s ≠ "..") : q = here ++ rest := by
  induction h with
  | here => exact (List.append_nil _).symm
  | up => exact absurd rfl (hup ".." List.mem_cons_self)
  | absent => rfl
  | @onward _ here q name rest _ _ _ _ _ _ ih =>
      have hnext : here ++ name :: rest = (here ++ [name]) ++ rest := by simp
      rw [hnext] at hroot ⊢
      exact ih hroot fun s hs => hup s (List.mem_cons_of_mem _ hs)
  | stay _ _ _ hfollow => exact nomatch hfollow
  | @link _ here _ name _ rest _ _ hfind _ _ _ =>
      -- a link would lie on the way to the root or below it
      have hnext : here ++ name :: rest = (here ++ [name]) ++ rest := by simp
      rw [hnext] at hroot
      have hwhere := hfree _ _ hfind
      rcases List.prefix_or_prefix_of_prefix hroot (List.prefix_append _ rest) with hp | hp
      · exact absurd hp hwhere.2
      · exact absurd hp hwhere.1

/-- **Below a root without links, paths lead where they say.** -/
theorem locate_linkFree {d : Disk} {root p q : Path} (h : LinkFree d root) (hroot : root <+: p)
    (hup : ∀ s ∈ p, s ≠ "..") (hq : d.locate true p = .ok q) : q = p :=
  (locate_eq_ok.mp hq).2.linkFree h hroot hup

/-- **Below a root without links, files with different paths are all there** at the end. -/
theorem read_of_linkFree {d d' : Disk} (ht : IsTree d) {fs : List (Path × String)}
    (h : d.writeAll fs = .ok d') {root : Path} (hfree : LinkFree d root)
    (hbelow : ∀ x ∈ fs, root <+: x.1 ∧ ∀ s ∈ x.1, s ≠ "..") (hnodup : (fs.map Prod.fst).Nodup)
    (shown : String) : ∀ x ∈ fs, d'.read x.1 shown = .ok (Text.Utf8.encode x.2) := by
  intro x hx
  have hfree' := hfree.of_grown (grown_writeAll ht h).1
  -- every path leads to itself, so that places are told apart by their paths
  have hlocate : ∀ y ∈ fs, d'.locate true y.1 = .ok y.1 := by
    intro y hy
    obtain ⟨q, hq⟩ := exists_locate_writeAll ht h y hy
    have hself := locate_linkFree hfree' (hbelow y hy).1 (hbelow y hy).2 hq
    rw [hq, hself]
  obtain ⟨before, after, rfl⟩ := List.append_of_mem hx
  refine read_writeAll ht h (fun y hy => ?_) shown
  have hlater : y ∈ before ++ x :: after := List.mem_append_right _ (List.mem_cons_of_mem _ hy)
  rw [hlocate y hlater, hlocate x hx]
  intro heq
  rw [List.map_append, List.map_cons] at hnodup
  have hnot := (List.nodup_cons.mp (List.nodup_append.mp hnodup).2.1).1
  exact hnot (Except.ok.inj heq ▸ List.mem_map_of_mem hy)

end Scaffold.Disk
