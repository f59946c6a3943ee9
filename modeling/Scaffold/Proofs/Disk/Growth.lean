import Scaffold.Disk.Change
import Scaffold.Proofs.Disk.Walking

/-!
# `Scaffold.Proofs.Disk.Growth` — disks to which something is added

Directories are made where nothing is, and files are written where nothing or a file is. So a disk
only grows (`Grown`), and a path that led somewhere leads there still (`locate_of_grown`).

## Contents
- **Entries.** `find?_put`.
- **Growing.** `Becomes`, `Grown`, `DirectoriesAdded`, `FrameKept`.
- **Looking up.** `Arrives.of_file`, `Arrives.of_frameKept`, `locate_of_frameKept`, `locate_of_grown`.
-/

namespace Scaffold.Disk

/-! ## Entries -/

theorem lookup_filter_ne {es : List (Path × Entry)} {p q : Path} (h : p ≠ q) :
    (es.filter fun (r, _) => r ≠ q).lookup p = es.lookup p := by
  induction es with
  | nil => rfl
  | cons x es ih =>
      obtain ⟨r, e⟩ := x
      by_cases hr : r = q
      · subst hr
        rw [List.filter_cons_of_neg (by simp), ih, List.lookup_cons, beq_false_of_ne h]
      · rw [List.filter_cons_of_pos (by simpa using hr), List.lookup_cons, List.lookup_cons, ih]

/-- Putting an entry changes its own path only. -/
theorem find?_put {d : Disk} {q : Path} (hq : q ≠ []) (e : Entry) (p : Path) :
    (d.put q e).find? p = if p = q then some e else d.find? p := by
  unfold find? put
  by_cases hp : p = q
  · subst hp
    simp [hq]
  · simp only [if_neg hp]
    rw [List.lookup_cons, beq_false_of_ne hp]
    simp only [lookup_filter_ne hp]

theorem ne_nil_of_find? {d : Disk} {p : Path} (h : d.find? p ≠ some .directory) : p ≠ [] := by
  rintro rfl
  exact h rfl

/-! ## Growing -/

/-- What may become of an entry when directories are made and files are written. -/
inductive Becomes : Option Entry → Option Entry → Prop
  | same (e : Option Entry) : Becomes e e
  | made : Becomes none (some .directory)
  | created (bytes : List UInt8) : Becomes none (some (.file bytes))
  | rewritten (old new : List UInt8) : Becomes (some (.file old)) (some (.file new))

theorem Becomes.trans {a b c : Option Entry} (h : Becomes a b) (g : Becomes b c) : Becomes a c := by
  cases h with
  | same => exact g
  | made =>
      cases g with
      | same => exact .made
  | created bytes =>
      cases g with
      | same => exact .created bytes
      | rewritten _ new => exact .created new
  | rewritten old bytes =>
      cases g with
      | same => exact .rewritten old bytes
      | rewritten _ new => exact .rewritten old new

/-- The second disk holds what the first one holds, but for the bytes of files, and perhaps more
    directories and files. -/
def Grown (d d' : Disk) : Prop := ∀ p, Becomes (d.find? p) (d'.find? p)

/-- The second disk holds what the first one holds, and perhaps more directories. -/
def DirectoriesAdded (d d' : Disk) : Prop :=
  ∀ p, d'.find? p = d.find? p ∨ d.find? p = none ∧ d'.find? p = some .directory

theorem Grown.refl (d : Disk) : Grown d d := fun _ => .same _

theorem Grown.trans {a b c : Disk} (h : Grown a b) (g : Grown b c) : Grown a c :=
  fun p => (h p).trans (g p)

theorem DirectoriesAdded.refl (d : Disk) : DirectoriesAdded d d := fun _ => .inl rfl

theorem DirectoriesAdded.trans {a b c : Disk} (h : DirectoriesAdded a b)
    (g : DirectoriesAdded b c) : DirectoriesAdded a c := by
  intro p
  rcases g p with gp | ⟨gn, gd⟩
  · rw [gp]
    exact h p
  · rcases h p with hp | ⟨_, hd⟩
    · exact .inr ⟨hp ▸ gn, gd⟩
    · rw [hd] at gn
      exact absurd gn (by simp)

theorem DirectoriesAdded.grown {d d' : Disk} (h : DirectoriesAdded d d') : Grown d d' := by
  intro p
  rcases h p with hp | ⟨hn, hd⟩
  · rw [hp]
    exact .same _
  · rw [hn, hd]
    exact .made

/-- No link comes with growing. -/
theorem Grown.link {d d' : Disk} (h : Grown d d') {p : Path} {t : String} :
    d'.find? p = some (.link t) → d.find? p = some (.link t) := by
  intro hl
  have hp := h p
  rw [hl] at hp
  generalize d.find? p = e at hp
  cases hp
  rfl

theorem directoriesAdded_put {d : Disk} {q : Path} (h : d.find? q = none) :
    DirectoriesAdded d (d.put q .directory) := by
  intro p
  have hq : q ≠ [] := by
    rintro rfl
    exact absurd h (by simp [find?])
  rw [find?_put hq]
  split
  · rename_i hp
    exact .inr ⟨hp ▸ h, rfl⟩
  · exact .inl rfl

theorem grown_put_file {d : Disk} {q : Path} {bytes : List UInt8}
    (hd : d.find? q ≠ some .directory) (hl : ∀ t, d.find? q ≠ some (.link t)) :
    Grown d (d.put q (.file bytes)) := by
  intro p
  rw [find?_put (ne_nil_of_find? hd)]
  split
  · rename_i hp
    subst hp
    cases he : d.find? p with
    | none => exact .created bytes
    | some e =>
        cases e with
        | directory => exact absurd he hd
        | file old => exact .rewritten old bytes
        | link t => exact absurd he (hl t)
  · exact .same _

/-- What was a directory, a file or a link still is. -/
theorem Becomes.stays {e e' : Option Entry} (h : Becomes e e') :
    (e = some .directory → e' = some .directory) ∧ (∀ t, e = some (.link t) → e' = some (.link t)) ∧
      (∀ bytes, e = some (.file bytes) → ∃ new, e' = some (.file new)) := by
  cases h with
  | same => exact ⟨id, fun _ => id, fun bytes he => ⟨bytes, he⟩⟩
  | made => exact ⟨nofun, nofun, nofun⟩
  | created bytes => exact ⟨nofun, nofun, nofun⟩
  | rewritten old new => exact ⟨nofun, nofun, fun _ _ => ⟨new, rfl⟩⟩

theorem Grown.directory {d d' : Disk} (h : Grown d d') {p : Path}
    (hp : d.find? p = some .directory) : d'.find? p = some .directory := (h p).stays.1 hp

/-- Directories and links stay where they are, and no link is new. -/
structure FrameKept (d d' : Disk) : Prop where
  directory : ∀ p, d.find? p = some .directory → d'.find? p = some .directory
  link : ∀ p t, d'.find? p = some (.link t) ↔ d.find? p = some (.link t)

theorem Grown.frameKept {d d' : Disk} (h : Grown d d') : FrameKept d d' :=
  ⟨fun _ => h.directory, fun p t => ⟨h.link, (h p).stays.2.1 t⟩⟩

/-! ## Looking up -/

/-- Nothing lies in a file. -/
theorem Arrives.of_file {d : Disk} {follow : Bool} {links : Nat} {here q : Path} {rest : List String}
    {bytes : List UInt8} (hfile : d.find? here = some (.file bytes))
    (h : Arrives d follow links here rest q) : rest = [] ∧ q = here := by
  have hnot : d.find? here ≠ some .directory := by
    rw [hfile]
    exact nofun
  cases h with
  | here => exact ⟨rfl, rfl⟩
  | up hdir => exact absurd hdir hnot
  | absent hdir => exact absurd hdir hnot
  | onward hdir => exact absurd hdir hnot
  | stay hdir => exact absurd hdir hnot
  | link hdir => exact absurd hdir hnot

/-- A last step to what is no link arrives there. -/
theorem Arrives.last {d : Disk} {follow : Bool} {links : Nat} {here : Path} {name : String}
    (hdir : d.find? here = some .directory) (hname : Passable name)
    (hlink : ∀ t, d.find? (here ++ [name]) ≠ some (.link t)) :
    Arrives d follow links here [name] (here ++ [name]) := by
  cases hfind : d.find? (here ++ [name]) with
  | none => exact .absent hdir hname hfind
  | some e =>
      refine .onward hdir hname hfind (fun t ht => ?_) .here
      rw [ht] at hfind
      exact hlink t hfind

/-- **A walk that arrives does so wherever directories and links are kept**: no walk goes on from what is
    neither. -/
theorem Arrives.of_frameKept {d d' : Disk} (hk : FrameKept d d') {follow : Bool} {links : Nat}
    {here q : Path} {rest : List String} (h : Arrives d follow links here rest q) :
    Arrives d' follow links here rest q := by
  have hnot : ∀ p e, d.find? p = e → (∀ t, e ≠ some (.link t)) →
      ∀ t, d'.find? p ≠ some (.link t) := by
    rintro p _ rfl he t ht
    exact he t ((hk.link p t).mp ht)
  induction h with
  | here => exact .here
  | up hdir _ ih => exact .up (hk.directory _ hdir) ih
  | absent hdir hname hfind =>
      exact .last (hk.directory _ hdir) hname (hnot _ _ hfind nofun)
  | @onward links here q name rest e hdir hname hfind hlink hrest ih =>
      have hdir' := hk.directory _ hdir
      cases e with
      | directory => exact .onward hdir' hname (hk.directory _ hfind) (fun t => nofun) ih
      | file bytes =>
          obtain ⟨rfl, rfl⟩ := hrest.of_file hfind
          exact .last hdir' hname (hnot _ _ hfind nofun)
      | link t => exact absurd rfl (hlink t)
  | stay hdir hname hfind hfollow =>
      exact .stay (hk.directory _ hdir) hname ((hk.link _ _).mpr hfind) hfollow
  | link hdir hname hfind hgo _ ih =>
      exact .link (hk.directory _ hdir) hname ((hk.link _ _).mpr hfind) hgo ih

/-- **A walk that arrives does so on a grown disk as well.** -/
theorem Arrives.of_grown {d d' : Disk} (hg : Grown d d') {follow : Bool} {links : Nat}
    {here q : Path} {rest : List String} (h : Arrives d follow links here rest q) :
    Arrives d' follow links here rest q := h.of_frameKept hg.frameKept

/-- A path that leads somewhere leads there wherever directories and links are kept. -/
theorem locate_of_frameKept {d d' : Disk} (h : FrameKept d d') {follow : Bool} {p q : Path}
    (hq : d.locate follow p = .ok q) : d'.locate follow p = .ok q := by
  obtain ⟨hlong, harrives⟩ := locate_eq_ok.mp hq
  exact locate_eq_ok.mpr ⟨hlong, harrives.of_frameKept h⟩

/-- **A path that leads somewhere leads there on a grown disk.** -/
theorem locate_of_grown {d d' : Disk} (h : Grown d d') {follow : Bool} {p q : Path}
    (hq : d.locate follow p = .ok q) : d'.locate follow p = .ok q :=
  locate_of_frameKept h.frameKept hq

end Scaffold.Disk
