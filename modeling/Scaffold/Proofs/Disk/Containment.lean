import Scaffold.Proofs.Disk.Resolving
import Scaffold.Proofs.Disk.Writing

/-!
# `Scaffold.Proofs.Disk.Containment` — ways that stay below a root

A way may lead up as long as it never leads out of where it began (`stays`). Then its normal form lies
below the root (`normalFrom_stays`), and without links in between so does the place that it leads to
(`locate_stays`). So files written along such ways leave everything else as it was
(`find?_writeAll_stays`).

## Contents
- **Ways.** `stays`, `stays_append`, `normalFrom_stays`.
- **Walks.** `Arrives.near`, `near_stays`, `locate_stays`.
- **Writing.** `find?_writeAll_stays`.
-/

namespace Scaffold.Disk

/-! ## Ways -/

/-- A way never leads above where it begins, which is `depth` directories down. -/
def stays (depth : Nat) : List String → Bool
  | [] => true
  | s :: r => if s = ".." then 0 < depth && stays (depth - 1) r else stays (depth + 1) r

/-- The front of a way that stays does so as well. -/
theorem stays_append (depth : Nat) (p q : List String) :
    stays depth (p ++ q) = true → stays depth p = true := by
  induction p generalizing depth with
  | nil => exact fun _ => rfl
  | cons s p ih =>
      rw [List.cons_append, stays, stays]
      split
      · intro h
        rw [Bool.and_eq_true] at h ⊢
        exact ⟨h.1, ih _ h.2⟩
      · exact ih _

theorem stays_concat {depth : Nat} {p : List String} {s : String} (hp : stays depth p = true)
    (hs : s ≠ "..") : stays depth (p ++ [s]) = true := by
  induction p generalizing depth with
  | nil => rw [List.nil_append, stays, if_neg hs, stays]
  | cons t p ih =>
      rw [List.cons_append, stays]
      rw [stays] at hp
      split at hp
      · rename_i ht
        rw [Bool.and_eq_true] at hp
        rw [if_pos ht, Bool.and_eq_true]
        exact ⟨hp.1, ih hp.2⟩
      · rename_i ht
        rw [if_neg ht]
        exact ih hp

/-- Names lead down, so that what follows may lead up as often. -/
theorem stays_names {names : List String} (h : ∀ s ∈ names, s ≠ "..") (depth : Nat)
    (p : List String) : stays depth (names ++ p) = stays (names.length + depth) p := by
  induction names generalizing depth with
  | nil => rw [List.nil_append, List.length_nil, Nat.zero_add]
  | cons s names ih =>
      rw [List.cons_append, stays, if_neg (h s List.mem_cons_self),
        ih fun t ht => h t (List.mem_cons_of_mem _ ht)]
      congr 1
      rw [List.length_cons]
      omega

/-- **A way that stays is resolved below the root.** -/
theorem normalFrom_stays (root : Path) {c : Path} {p : List String} (h : stays c.length p = true) :
    Path.normalFrom (root ++ c) p = root ++ Path.normalFrom c p := by
  induction p generalizing c with
  | nil => rfl
  | cons s p ih =>
      rw [stays] at h
      rw [Path.normalFrom, Path.normalFrom]
      split at h
      · rename_i hs
        rw [Bool.and_eq_true, decide_eq_true_eq] at h
        have hne : c ≠ [] := List.length_pos_iff.mp h.1
        rw [if_pos hs, if_pos hs, List.dropLast_append_of_ne_nil hne]
        exact ih (by rw [List.length_dropLast]; exact h.2)
      · rename_i hs
        rw [if_neg hs, if_neg hs, List.append_assoc]
        exact ih (by rw [List.length_append]; exact h)

/-! ## Walks -/

/-- A path lies on the way to a root or below it. -/
def Near (root p : Path) : Prop := p <+: root ∨ root <+: p

/-- **A walk that stays near a root without links follows none**, and ends where its normal form
    does. -/
theorem Arrives.near {d : Disk} {root : Path} (hfree : LinkFree d root) {links : Nat}
    {here q : Path} {rest : List String} (h : Arrives d true links here rest q)
    (hnear : ∀ a b, rest = a ++ b → Near root (Path.normalFrom here a)) :
    q = Path.normalFrom here rest := by
  have hstep : ∀ {here next : Path} {name : String} {rest : List String},
      (∀ r, Path.normalFrom here (name :: r) = Path.normalFrom next r) →
      (∀ a b, name :: rest = a ++ b → Near root (Path.normalFrom here a)) →
      ∀ a b, rest = a ++ b → Near root (Path.normalFrom next a) := by
    intro here next name rest hnext hnear a b hab
    rw [← hnext]
    exact hnear (name :: a) b (by rw [hab, List.cons_append])
  have hdown : ∀ {name : String}, Passable name → ∀ here r,
      Path.normalFrom here (name :: r) = Path.normalFrom (here ++ [name]) r := by
    intro name hname here r
    rw [Path.normalFrom, if_neg hname.down]
  induction h with
  | here => rfl
  | @up _ here _ _ _ _ ih =>
      have hup : ∀ r, Path.normalFrom here (".." :: r) = Path.normalFrom here.dropLast r := by
        intro r
        rw [Path.normalFrom, if_pos rfl]
      rw [hup]
      exact ih (hstep hup hnear)
  | absent _ hname _ => exact (hdown hname _ []).symm
  | onward _ hname _ _ _ ih =>
      rw [hdown hname]
      exact ih (hstep (hdown hname _) hnear)
  | stay _ _ _ hfollow => exact absurd hfollow (by decide)
  | @link _ here _ name _ rest _ hname hfind _ _ _ =>
      -- the link would lie near the root
      have hthere := hnear [name] rest rfl
      rw [hdown hname, Path.normalFrom] at hthere
      have hwhere := hfree _ _ hfind
      rcases hthere with hp | hp
      · exact absurd hp hwhere.1
      · exact absurd hp hwhere.2

/-- A way that goes to a root and stays is near the root all along. -/
theorem near_stays {root : Path} (hup : Upless root) {way : List String}
    (h : stays 0 way = true) {a b : Path} (hab : root ++ way = a ++ b) :
    Near root (Path.normalFrom [] a) := by
  rcases List.append_eq_append_iff.mp hab with ⟨c, rfl, rfl⟩ | ⟨c, rfl, -⟩
  · -- past the root
    right
    have hc := stays_append 0 c b h
    have hbelow := normalFrom_stays root (c := []) hc
    rw [List.append_nil] at hbelow
    rw [normalFrom_append, normalFrom_names hup, List.nil_append, hbelow]
    exact List.prefix_append _ _
  · -- on the way to it
    left
    rw [normalFrom_names fun s hs => hup s (List.mem_append_left _ hs), List.nil_append]
    exact List.prefix_append _ _

variable {d : Disk} {root : Path}

theorem normal_stays (hup : Upless root) {way : List String} (h : stays 0 way = true) :
    Path.normal (root ++ way) = root ++ Path.normal way := by
  have hbelow := normalFrom_stays root (c := []) h
  rw [List.append_nil] at hbelow
  unfold Path.normal
  rw [normalFrom_append, normalFrom_names hup, List.nil_append, hbelow]

/-- **A way that stays below a root without links leads below it.** -/
theorem locate_stays (hfree : LinkFree d root) (hup : Upless root) {way : List String}
    (h : stays 0 way = true) {q : Path} (hq : d.locate true (root ++ way) = .ok q) :
    root <+: q := by
  have hnormal : q = Path.normal (root ++ way) :=
    (locate_eq_ok.mp hq).2.near hfree fun a b hab => near_stays hup h hab
  rw [hnormal, normal_stays hup h]
  exact List.prefix_append _ _

/-! ## Writing -/

/-- No link comes with a file. -/
theorem LinkFree.write {d' : Disk} (hfree : LinkFree d root) {p : Path} {text : String}
    (h : d.write p text = .ok d') : LinkFree d' root := by
  obtain ⟨q, -, hdir, rfl⟩ := write_eq_ok h
  intro r t hr
  rw [find?_put (ne_nil_of_find? hdir)] at hr
  split at hr
  · exact nomatch hr
  · exact hfree r t hr

/-- **Files written along ways that stay below a root change nothing elsewhere.** -/
theorem find?_writeAll_stays {d' : Disk} (hfree : LinkFree d root) (hup : Upless root)
    {fs : List (Path × String)} (hfs : ∀ x ∈ fs, ∃ way, x.1 = root ++ way ∧ stays 0 way = true)
    (h : d.writeAll fs = .ok d') {p : Path} (hp : ¬ root <+: p) : d'.find? p = d.find? p := by
  induction fs generalizing d with
  | nil =>
      cases h
      rfl
  | cons x fs ih =>
      obtain ⟨d₁, hwrite, hrest⟩ := writeAll_cons_eq_ok.mp h
      have hsame := ih (hfree.write hwrite) (fun y hy => hfs y (List.mem_cons_of_mem _ hy)) hrest
      obtain ⟨way, hway, hstays⟩ := hfs x List.mem_cons_self
      obtain ⟨q, hq, hdir, rfl⟩ := write_eq_ok hwrite
      rw [hway] at hq
      have hbelow := locate_stays hfree hup hstays hq
      have hne : p ≠ q := by
        rintro rfl
        exact hp hbelow
      rw [hsame, find?_put (ne_nil_of_find? hdir), if_neg hne]

end Scaffold.Disk
