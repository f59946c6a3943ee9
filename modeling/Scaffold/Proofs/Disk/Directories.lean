import Scaffold.Proofs.Disk.Growth
import Scaffold.Proofs.Results

/-!
# `Scaffold.Proofs.Disk.Directories` — making directories

Every entry of a disk lies in a directory (`IsTree`), and making directories keeps it so. It adds
directories and nothing else, whether it succeeds or not (`prepared_ensureAll`); where it succeeds, the
directories are there (`status_of_ensureAll`).

## Contents
- **Trees.** `IsTree`, `isTree_nil`, `EndsAt`, `endsAt_locate`, `isTree_put`.
- **Directories.** `Prepared`, `makeOne_eq_ok`, `prepared_ensureAll`.
- **What is there.** `status_eq_ok`, `status_of_grown`, `status_of_ensureAll`.
-/

namespace Scaffold.Disk

/-! ## Trees -/

/-- Everything lies in a directory. -/
def IsTree (d : Disk) : Prop := ∀ p, d.find? p ≠ none → d.find? p.dropLast = some .directory

/-- A place that a walk may end at: what is missing lies in a directory, and a link stands there only
    if the last link was not to be followed. -/
def EndsAt (d : Disk) (follow : Bool) (q : Path) : Prop :=
  match d.find? q with
  | none => d.find? q.dropLast = some .directory
  | some (.link _) => follow = false
  | some _ => True

theorem endsAt_of_found {d : Disk} {follow : Bool} {q : Path} {e : Entry}
    (h : d.find? q = some e) (hl : ∀ t, e ≠ .link t) : EndsAt d follow q := by
  unfold EndsAt
  rw [h]
  cases e with
  | directory => trivial
  | file bytes => trivial
  | link t => exact absurd rfl (hl t)

/-- Every step of a walk leads to a place that it may end at. -/
theorem Arrives.endsAt {d : Disk} (ht : IsTree d) {follow : Bool} {links : Nat} {here q : Path}
    {rest : List String} (h : Arrives d follow links here rest q) (hhere : EndsAt d follow here) :
    EndsAt d follow q := by
  induction h with
  | here => exact hhere
  | @up _ here _ _ hdir _ ih =>
      have habove := ht here (by rw [hdir]; exact nofun)
      exact ih (endsAt_of_found habove nofun)
  | absent hdir _ hfind =>
      unfold EndsAt
      rw [hfind, List.dropLast_concat]
      exact hdir
  | onward _ _ hfind hlink _ ih => exact ih (endsAt_of_found hfind hlink)
  | stay _ _ hfind hfollow =>
      unfold EndsAt
      rw [hfind]
      exact hfollow
  | link hdir _ _ _ _ ih =>
      refine ih ?_
      split
      · exact endsAt_of_found (e := .directory) rfl nofun
      · exact endsAt_of_found hdir nofun

/-- **Where a path of a tree leads**, there is no link left to follow, and what is missing could be
    made. -/
theorem endsAt_locate {d : Disk} (ht : IsTree d) {follow : Bool} {p q : Path}
    (hq : d.locate follow p = .ok q) : EndsAt d follow q :=
  (locate_eq_ok.mp hq).2.endsAt ht (endsAt_of_found (e := .directory) rfl nofun)

theorem isTree_nil : IsTree ⟨[]⟩ := by
  intro p hp
  by_cases hnil : p = []
  · rw [hnil]
    rfl
  · exact absurd (by simp [find?, hnil]) hp

theorem isTree_put {d : Disk} (ht : IsTree d) {q : Path} {e : Entry}
    (hq : d.find? q ≠ some .directory) (habove : d.find? q.dropLast = some .directory) :
    IsTree (d.put q e) := by
  intro p hp
  have hne := ne_nil_of_find? hq
  rw [find?_put hne] at hp ⊢
  -- nothing lies in `q`, since it is no directory
  have hsame : ∀ r : Path, d.find? r = some .directory → r ≠ q := by
    rintro r hr rfl
    exact hq hr
  split at hp
  · rename_i h
    subst h
    rw [if_neg (hsame _ habove)]
    exact habove
  · have hdir := ht p hp
    rw [if_neg (hsame _ hdir)]
    exact hdir

/-! ## Directories -/

/-- What making directories does to a disk, whether or not it succeeds. -/
structure Prepared (d d' : Disk) : Prop where
  added : DirectoriesAdded d d'
  tree : IsTree d → IsTree d'

theorem Prepared.refl (d : Disk) : Prepared d d := ⟨.refl d, id⟩

theorem Prepared.trans {a b c : Disk} (h : Prepared a b) (g : Prepared b c) : Prepared a c :=
  ⟨h.added.trans g.added, g.tree ∘ h.tree⟩

/-- A directory is made where nothing is. -/
theorem makeOne_eq_ok {d d' : Disk} {p : Path} (h : d.makeOne p = .ok d') :
    ∃ q, d.locate false p = .ok q ∧ d.find? q = none ∧ d' = d.put q .directory := by
  unfold makeOne at h
  obtain ⟨q, hq, h⟩ := Results.bind_eq_ok.mp h
  refine ⟨q, hq, ?_⟩
  cases hf : d.find? q with
  | some e =>
      rw [hf] at h
      exact nomatch h
  | none =>
      rw [hf] at h
      cases h
      exact ⟨rfl, rfl⟩

theorem prepared_makeOne {d d' : Disk} {p : Path} (h : d.makeOne p = .ok d') : Prepared d d' := by
  obtain ⟨q, hq, hf, rfl⟩ := makeOne_eq_ok h
  refine ⟨directoriesAdded_put hf, fun ht => isTree_put ht (by rw [hf]; exact nofun) ?_⟩
  -- what is missing there lies in a directory
  have hend := endsAt_locate ht hq
  unfold EndsAt at hend
  rw [hf] at hend
  exact hend

theorem prepared_makeDirectory (fuel : Nat) (d : Disk) (p : Path) :
    Prepared d (makeDirectory fuel d p).1 := by
  induction fuel generalizing d p with
  | zero =>
      unfold makeDirectory
      split
      · rename_i h
        exact prepared_makeOne h
      · exact .refl d
  | succ n ih =>
      unfold makeDirectory
      cases hmake : d.makeOne p with
      | ok d' => exact prepared_makeOne hmake
      | error e =>
          cases e with
          | missing =>
              -- the directories above are made first, and stay even if the last one cannot be made
              have habove := ih d p.parent
              simp only
              split
              · rename_i hfail
                rw [hfail] at habove
                exact habove
              · rename_i hmade
                rw [hmade] at habove
                split
                · rename_i h
                  exact habove.trans (prepared_makeOne h)
                · exact habove
          | _ => exact .refl d

theorem prepared_ensureDirectory (d : Disk) (p : Path) : Prepared d (d.ensureDirectory p).1 := by
  unfold ensureDirectory
  split
  · exact .refl d
  · exact .refl d
  · have hmade := prepared_makeDirectory p.length d p
    split
    · rename_i h
      rw [h] at hmade
      exact hmade
    · rename_i h
      rw [h] at hmade
      exact hmade

/-- **Making directories only adds directories**, also when it fails on the way. -/
theorem prepared_ensureAll (d : Disk) (ps : List Path) : Prepared d (d.ensureAll ps).1 := by
  induction ps generalizing d with
  | nil => exact .refl d
  | cons p ps ih =>
      have hp := prepared_ensureDirectory d p
      unfold ensureAll
      split
      · rename_i h
        rw [h] at hp
        exact hp
      · rename_i h
        rw [h] at hp
        exact hp.trans (ih _)

/-! ## What is there -/

/-- A walk that ends at no link need not ask whether to follow the last one. -/
theorem Arrives.follow {d : Disk} {links : Nat} {here q : Path} {rest : List String}
    (h : Arrives d false links here rest q) (hlink : ∀ t, d.find? q ≠ some (.link t)) :
    Arrives d true links here rest q := by
  induction h with
  | here => exact .here
  | up hdir _ ih => exact .up hdir (ih hlink)
  | absent hdir hname hfind => exact .absent hdir hname hfind
  | onward hdir hname hfind hsolid _ ih => exact .onward hdir hname hfind hsolid (ih hlink)
  | stay _ _ hfind _ => exact absurd hfind (hlink _)
  | link hdir hname hfind _ _ ih =>
      exact .link hdir hname hfind (fun hstay => nomatch hstay.2) (ih hlink)

/-- The status of a path is what stands where it leads. -/
theorem status_eq_ok {d : Disk} {p : Path} {e : Entry} :
    d.status p = .ok e ↔ ∃ q, d.locate true p = .ok q ∧ d.find? q = some e := by
  unfold status
  rw [Results.bind_eq_ok]
  refine exists_congr fun q => and_congr_right fun _ => ?_
  cases d.find? q with
  | none =>
      constructor
      · intro h
        exact nomatch h
      · intro h
        exact nomatch h
  | some e' =>
      constructor
      · intro h
        cases h
        rfl
      · intro h
        cases h
        rfl

/-- A directory that was made is there. -/
theorem status_of_makeOne {d d' : Disk} {p : Path} (h : d.makeOne p = .ok d') :
    d'.status p = .ok .directory := by
  have hgrown := (prepared_makeOne h).added.grown
  obtain ⟨q, hq, hf, rfl⟩ := makeOne_eq_ok h
  have hfind : (d.put q .directory).find? q = some .directory := by
    rw [find?_put (ne_nil_of_find? (by rw [hf]; exact nofun)), if_pos rfl]
  obtain ⟨hlong, harrives⟩ := locate_eq_ok.mp (locate_of_grown hgrown hq)
  have hfollow := harrives.follow fun t ht => nomatch hfind.symm.trans ht
  exact status_eq_ok.mpr ⟨q, locate_eq_ok.mpr ⟨hlong, hfollow⟩, hfind⟩

theorem status_of_isDirectory {d : Disk} {p : Path} (h : d.isDirectory p = .ok true) :
    d.status p = .ok .directory := by
  unfold isDirectory status? at h
  obtain ⟨e, he, hdirectory⟩ := Results.map_eq_ok.mp h
  cases hs : d.status p with
  | ok e' =>
      rw [hs] at he
      cases he
      rw [Option.some.inj (of_decide_eq_true hdirectory)]
  | error fault =>
      rw [hs] at he
      simp only at he
      split at he
      · -- nothing is there, which is no directory
        cases he
        exact nomatch hdirectory
      · exact nomatch he

theorem status_of_alreadyThere {d : Disk} {p : Path} {e : Errno} (h : d.alreadyThere p e = none) :
    d.status p = .ok .directory := by
  unfold alreadyThere at h
  split at h
  · exact status_of_isDirectory ‹_›
  · exact absurd h (by simp)
  · exact absurd h (by simp)

theorem status_of_makeDirectory {fuel : Nat} {d d' : Disk} {p : Path}
    (h : makeDirectory fuel d p = (d', none)) : d'.status p = .ok .directory := by
  cases fuel with
  | zero =>
      unfold makeDirectory at h
      split at h
      · cases h
        exact status_of_makeOne ‹_›
      · obtain ⟨rfl, halready⟩ := Prod.mk.inj h
        exact status_of_alreadyThere halready
  | succ n =>
      unfold makeDirectory at h
      cases hmake : d.makeOne p with
      | ok d₁ =>
          rw [hmake] at h
          cases h
          exact status_of_makeOne hmake
      | error e =>
          rw [hmake] at h
          cases e with
          | missing =>
              simp only at h
              split at h
              · exact absurd h (by simp)
              · split at h
                · cases h
                  exact status_of_makeOne ‹_›
                · obtain ⟨rfl, halready⟩ := Prod.mk.inj h
                  exact status_of_alreadyThere halready
          | _ =>
              obtain ⟨rfl, halready⟩ := Prod.mk.inj h
              exact status_of_alreadyThere halready

/-- Directories stay directories. -/
theorem status_of_grown {d d' : Disk} (h : Grown d d') {p : Path}
    (hp : d.status p = .ok .directory) : d'.status p = .ok .directory := by
  obtain ⟨q, hq, hfind⟩ := status_eq_ok.mp hp
  exact status_eq_ok.mpr ⟨q, locate_of_grown h hq, h.directory hfind⟩

theorem status_of_ensureDirectory {d d' : Disk} {p : Path} {made : Bool}
    (h : d.ensureDirectory p = (d', .ok made)) : d'.status p = .ok .directory := by
  unfold ensureDirectory at h
  split at h
  · exact absurd h (by simp)
  · cases h
    exact status_of_isDirectory ‹_›
  · split at h
    · cases h
      exact status_of_makeDirectory ‹_›
    · exact absurd h (by simp)

/-- **Directories that were ensured are there.** -/
theorem status_of_ensureAll {d d' : Disk} {ps made : List Path}
    (h : d.ensureAll ps = (d', .ok made)) : ∀ p ∈ ps, d'.status p = .ok .directory := by
  induction ps generalizing d made with
  | nil => exact fun _ hp => absurd hp List.not_mem_nil
  | cons p ps ih =>
      unfold ensureAll at h
      split at h
      · exact absurd h (by simp)
      · rename_i d₁ b hp
        have hrest := (prepared_ensureAll d₁ ps).added.grown
        cases hall : d₁.ensureAll ps with
        | mk d₂ rest =>
            rw [hall] at h hrest
            simp only at h hrest
            obtain ⟨rfl, hmap⟩ := Prod.mk.inj h
            obtain ⟨more, rfl, -⟩ := Results.map_eq_ok.mp hmap
            -- the directories that follow leave the first one where it is
            intro q hq
            rcases List.mem_cons.mp hq with rfl | hq
            · exact status_of_grown hrest (status_of_ensureDirectory hp)
            · exact ih hall q hq

end Scaffold.Disk
