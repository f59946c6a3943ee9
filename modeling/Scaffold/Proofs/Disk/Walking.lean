import Scaffold.Disk.Basic
import Scaffold.Proofs.Disk.Path

/-!
# `Scaffold.Proofs.Disk.Walking` — walks that arrive

`Arrives` says what a walk that arrives does at each part of its way, without the fuel that bounds it:
a disk has only so many links, and only so many are followed, so the fuel is never used up
(`walk_of_arrives`). A path leads where a walk arrives (`locate_eq_ok`), and what is proved of `Arrives`
by induction holds of every path.

## Contents
- **Walks.** `Passable`, `Arrives`, `arrives_of_walk`.
- **Fuel.** `length_le_linkWeight`, `walk_of_arrives`.
- **Paths.** `locate_eq_ok`.
- **Failures.** `errno_of_walk`, `errno_of_status`.
-/

namespace Scaffold.Disk

/-! ## Walks -/

/-- A part that leads down and is not too long. -/
structure Passable (name : String) : Prop where
  down : name ≠ ".."
  short : ¬ nameLimit < name.utf8ByteSize

/-- **The walk from a directory along some parts arrives**, with at most so many links on the way. -/
inductive Arrives (d : Disk) (follow : Bool) : (links : Nat) → (here : Path) → (rest : List String) →
    Path → Prop
  | here {links : Nat} {here : Path} : Arrives d follow links here [] here
  | up {links : Nat} {here q : Path} {rest : List String} (hdir : d.find? here = some .directory)
      (h : Arrives d follow links here.dropLast rest q) : Arrives d follow links here (".." :: rest) q
  /-- The last part need not exist. -/
  | absent {links : Nat} {here : Path} {name : String} (hdir : d.find? here = some .directory)
      (hname : Passable name) (hfind : d.find? (here ++ [name]) = none) :
      Arrives d follow links here [name] (here ++ [name])
  | onward {links : Nat} {here q : Path} {name : String} {rest : List String} {e : Entry}
      (hdir : d.find? here = some .directory) (hname : Passable name)
      (hfind : d.find? (here ++ [name]) = some e) (hlink : ∀ t, e ≠ .link t)
      (h : Arrives d follow links (here ++ [name]) rest q) :
      Arrives d follow links here (name :: rest) q
  /-- A link at the end is not followed unless it is asked for. -/
  | stay {links : Nat} {here : Path} {name t : String} (hdir : d.find? here = some .directory)
      (hname : Passable name) (hfind : d.find? (here ++ [name]) = some (.link t))
      (hfollow : follow = false) : Arrives d follow links here [name] (here ++ [name])
  | link {links : Nat} {here q : Path} {name t : String} {rest : List String}
      (hdir : d.find? here = some .directory) (hname : Passable name)
      (hfind : d.find? (here ++ [name]) = some (.link t)) (hgo : ¬ (rest = [] ∧ follow = false))
      (h : Arrives d follow links (if isAbsolute t then [] else here) (partsOf t ++ rest) q) :
      Arrives d follow (links + 1) here (name :: rest) q

variable {d : Disk} {follow : Bool} {links : Nat} {here q : Path} {rest : List String}

/-- A walk that says that it arrives does. -/
theorem arrives_of_walk {fuel : Nat} (h : d.walk follow fuel links here rest = .ok q) :
    Arrives d follow links here rest q := by
  induction fuel generalizing links here rest with
  | zero => exact nomatch h
  | succ n ih =>
      cases rest with
      | nil =>
          rw [walk] at h
          cases h
          exact .here
      | cons name rest =>
          rw [walk] at h
          by_cases hdir : d.find? here = some .directory
          · rw [if_neg (not_not_intro hdir)] at h
            by_cases hup : name = ".."
            · subst hup
              rw [if_pos rfl] at h
              exact .up hdir (ih h)
            · rw [if_neg hup] at h
              by_cases hlong : nameLimit < name.utf8ByteSize
              · rw [if_pos hlong] at h
                exact nomatch h
              · rw [if_neg hlong] at h
                have hname : Passable name := ⟨hup, hlong⟩
                -- the rest depends on what the part leads to
                cases hfind : d.find? (here ++ [name]) with
                | none =>
                    simp only [hfind] at h
                    cases rest with
                    | nil =>
                        cases h
                        exact .absent hdir hname hfind
                    | cons x rest => exact nomatch h
                | some e =>
                    cases e with
                    | directory =>
                        simp only [hfind] at h
                        exact .onward hdir hname hfind (fun t => nofun) (ih h)
                    | file bytes =>
                        simp only [hfind] at h
                        exact .onward hdir hname hfind (fun t => nofun) (ih h)
                    | link t =>
                        simp only [hfind] at h
                        by_cases hstay : rest = [] ∧ follow = false
                        · obtain ⟨rfl, rfl⟩ := hstay
                          cases h
                          exact .stay hdir hname hfind rfl
                        · rw [if_neg (by simpa using hstay)] at h
                          cases links with
                          | zero => exact nomatch h
                          | succ k => exact .link hdir hname hfind hstay (ih h)
          · rw [if_pos hdir] at h
            exact nomatch h

/-! ## Fuel -/

/-- Links weigh what they add to a way. -/
theorem length_le_linkWeight {p : Path} {t : String} (h : d.find? p = some (.link t)) :
    (partsOf t).length ≤ linkWeight d := by
  unfold find? at h
  split at h
  · exact nomatch h
  · obtain ⟨es⟩ := d
    unfold linkWeight
    simp only at h ⊢
    induction es with
    | nil => exact nomatch h
    | cons x es ih =>
        obtain ⟨r, e⟩ := x
        rw [List.lookup_cons] at h
        rw [List.foldr_cons]
        split at h
        · cases h
          simp only
          omega
        · have hle := ih h
          cases e with
          | directory => exact hle
          | file bytes => exact hle
          | link t' =>
              simp only at hle ⊢
              omega

/-- A walk that arrives says so, if its fuel covers the parts that are left and those that links may
    add: `weight` bounds what one link adds. -/
theorem walk_of_arrives {weight : Nat}
    (hweight : ∀ p t, d.find? p = some (.link t) → (partsOf t).length ≤ weight)
    (h : Arrives d follow links here rest q) {fuel : Nat}
    (hfuel : rest.length + links * (weight + 1) < fuel) :
    d.walk follow fuel links here rest = .ok q := by
  induction h generalizing fuel with
  | here =>
      obtain ⟨n, rfl⟩ : ∃ n, fuel = n + 1 := ⟨fuel - 1, by omega⟩
      rw [walk]
  | up hdir _ ih =>
      obtain ⟨n, rfl⟩ : ∃ n, fuel = n + 1 := ⟨fuel - 1, by omega⟩
      rw [List.length_cons] at hfuel
      rw [walk, if_neg (not_not_intro hdir), if_pos rfl]
      exact ih (by omega)
  | absent hdir hname hfind =>
      obtain ⟨n, rfl⟩ : ∃ n, fuel = n + 1 := ⟨fuel - 1, by omega⟩
      rw [walk, if_neg (not_not_intro hdir), if_neg hname.down, if_neg hname.short]
      simp only [hfind]
      rfl
  | @onward links here q name rest e hdir hname hfind hlink _ ih =>
      obtain ⟨n, rfl⟩ : ∃ n, fuel = n + 1 := ⟨fuel - 1, by omega⟩
      rw [List.length_cons] at hfuel
      rw [walk, if_neg (not_not_intro hdir), if_neg hname.down, if_neg hname.short]
      cases e with
      | directory =>
          simp only [hfind]
          exact ih (by omega)
      | file bytes =>
          simp only [hfind]
          exact ih (by omega)
      | link t => exact absurd rfl (hlink t)
  | stay hdir hname hfind hfollow =>
      obtain ⟨n, rfl⟩ : ∃ n, fuel = n + 1 := ⟨fuel - 1, by omega⟩
      subst hfollow
      rw [walk, if_neg (not_not_intro hdir), if_neg hname.down, if_neg hname.short]
      simp only [hfind]
      rfl
  | @link links here q name t rest hdir hname hfind hgo _ ih =>
      obtain ⟨n, rfl⟩ : ∃ n, fuel = n + 1 := ⟨fuel - 1, by omega⟩
      rw [List.length_cons] at hfuel
      rw [walk, if_neg (not_not_intro hdir), if_neg hname.down, if_neg hname.short]
      simp only [hfind]
      rw [if_neg (by simpa using hgo)]
      -- one link less may be followed, and its target is no longer than the weight
      have hparts := hweight _ t hfind
      have hmul : (links + 1) * (weight + 1) = links * (weight + 1) + (weight + 1) :=
        Nat.succ_mul _ _
      exact ih (by rw [List.length_append]; omega)

/-! ## Paths -/

/-- **A path leads where a walk from the root arrives**, unless it is too long. -/
theorem locate_eq_ok {p : Path} : d.locate follow p = .ok q ↔
    ¬ pathLimit ≤ p.text.utf8ByteSize ∧ Arrives d follow linkLimit [] p q := by
  unfold locate
  by_cases hlong : pathLimit ≤ p.text.utf8ByteSize
  · rw [if_pos hlong]
    constructor
    · intro h
      exact nomatch h
    · intro h
      exact absurd hlong h.1
  · rw [if_neg hlong]
    constructor
    · exact fun h => ⟨hlong, arrives_of_walk h⟩
    · rintro ⟨-, h⟩
      refine walk_of_arrives (fun p t hl => length_le_linkWeight hl) h ?_
      rw [Nat.succ_mul]
      omega

/-! ## Failures -/

/-- A walk fails in few ways. -/
theorem errno_of_walk {fuel : Nat} {e : Errno}
    (h : d.walk follow fuel links here rest = .error e) : e = .nameTooLong ∨ e.saysAbsent = true := by
  induction fuel generalizing links here rest with
  | zero =>
      cases h
      exact .inr rfl
  | succ n ih =>
      cases rest with
      | nil => exact nomatch h
      | cons name rest =>
          unfold walk at h
          split at h
          · cases h
            exact .inr rfl
          · split at h
            · exact ih h
            · split at h
              · cases h
                exact .inl rfl
              · simp only at h
                split at h
                · split at h
                  · exact nomatch h
                  · cases h
                    exact .inr rfl
                · split at h
                  · exact nomatch h
                  · split at h
                    · cases h
                      exact .inr rfl
                    · exact ih h
                · exact ih h

/-- Looking a path up fails in few ways: nothing is there, or a name is too long. -/
theorem errno_of_status {p : Path} {e : Errno} (h : d.status p = .error e) :
    e = .nameTooLong ∨ e.saysAbsent = true := by
  unfold status at h
  cases hlocate : d.locate true p with
  | error e' =>
      rw [hlocate] at h
      cases h
      unfold locate at hlocate
      split at hlocate
      · cases hlocate
        exact .inl rfl
      · exact errno_of_walk hlocate
  | ok q =>
      rw [hlocate] at h
      simp only [bind, Except.bind] at h
      split at h
      · exact nomatch h
      · cases h
        exact .inr rfl

end Scaffold.Disk
