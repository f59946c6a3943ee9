import Scaffold.Disk.Basic
import Scaffold.Proofs.Disk.Path

/-!
# `Scaffold.Proofs.Disk.Resolving` — what a text names

A text is resolved from a directory by following links until none is left. What comes out consists of
names: no part of it holds a slash (`slashless_resolve`), and none leads up again (`upless_resolve`).
For the second, the fuel must not run out with parts left; it does not, since links that are being
followed are not followed again, so that each adds its target once (`pendingWeight`).

## Contents
- **Slashes.** `Slashless`, `slashless_resolve`.
- **Ways up.** `Upless`, `pendingWeight`, `upless_follow`, `upless_resolve`.
-/

namespace Scaffold.Disk

/-! ## Slashes -/

/-- No part of a path holds a slash. -/
def Slashless (p : Path) : Prop := ∀ s ∈ p, '/' ∉ s.toList

theorem slashless_nil : Slashless [] := fun _ h => absurd h List.not_mem_nil

theorem Slashless.append {p q : Path} (hp : Slashless p) (hq : Slashless q) : Slashless (p ++ q) := by
  intro s hs
  rcases List.mem_append.mp hs with h | h
  · exact hp s h
  · exact hq s h

theorem slashless_partsOf (text : String) : Slashless (partsOf text) :=
  fun _ hs => (mem_partsOf hs).2.2

theorem Slashless.dropLast {p : Path} (hp : Slashless p) : Slashless p.dropLast :=
  fun s hs => hp s ((List.dropLast_sublist p).subset hs)

theorem Slashless.normalFrom {done p : Path} (hdone : Slashless done) (hp : Slashless p) :
    Slashless (Path.normalFrom done p) := by
  induction p generalizing done with
  | nil => exact hdone
  | cons s p ih =>
      have hrest : Slashless p := fun t ht => hp t (List.mem_cons_of_mem _ ht)
      rw [Path.normalFrom]
      split
      · exact ih hdone.dropLast hrest
      · refine ih (hdone.append fun t ht => ?_) hrest
        rw [List.mem_singleton.mp ht]
        exact hp s List.mem_cons_self

theorem slashless_follow {d : Disk} {fuel : Nat} {active : List Path} {here : Path}
    {rest : List String} (hhere : Slashless here) (hrest : Slashless rest) :
    Slashless (d.follow fuel active here rest).1 := by
  induction fuel generalizing active here rest with
  | zero =>
      unfold follow
      exact hhere.append hrest
  | succ n ih =>
      cases rest with
      | nil =>
          unfold follow
          exact hhere
      | cons name rest =>
          have hname : Slashless [name] := fun t ht => by
            rw [List.mem_singleton.mp ht]
            exact hrest name List.mem_cons_self
          have htail : Slashless rest := fun t ht => hrest t (List.mem_cons_of_mem _ ht)
          have hthere := hhere.append hname
          unfold follow
          split
          · exact ih hhere.dropLast htail
          · simp only
            split
            · rename_i target _
              split
              · exact slashless_nil.normalFrom (hthere.append htail)
              · have hstart : Slashless (if isAbsolute target then [] else here) := by
                  split
                  · exact slashless_nil
                  · exact hhere
                have htarget : Slashless (d.follow n ((here ++ [name]) :: active)
                    (if isAbsolute target then [] else here) (partsOf target)).1 :=
                  ih hstart (slashless_partsOf target)
                split
                · rename_i hp
                  rw [hp] at htarget
                  exact ih htarget htail
                · rename_i hp
                  rw [hp] at htarget
                  exact slashless_nil.normalFrom (htarget.append htail)
            · exact ih hthere htail

/-- What a text names consists of parts, if the directory that it starts from does. -/
theorem slashless_resolve {d : Disk} {here p : Path} {text : String} (hhere : Slashless here)
    (h : d.resolve here text = .ok p) : Slashless p := by
  unfold resolve at h
  split at h
  · exact absurd h (by simp)
  · simp only at h
    split at h
    · exact absurd h (by simp)
    · cases h
      refine slashless_follow ?_ (slashless_partsOf text)
      split
      · exact slashless_nil
      · exact hhere

/-! ## Ways up -/

/-- No part of a path leads up. -/
def Upless (p : Path) : Prop := ∀ s ∈ p, s ≠ ".."

theorem upless_nil : Upless [] := fun _ h => absurd h List.not_mem_nil

theorem Upless.concat {p : Path} (hp : Upless p) {name : String} (hname : name ≠ "..") :
    Upless (p ++ [name]) := by
  intro s hs
  rcases List.mem_append.mp hs with h | h
  · exact hp s h
  · rw [List.mem_singleton.mp h]
    exact hname

theorem Upless.dropLast {p : Path} (hp : Upless p) : Upless p.dropLast :=
  fun s hs => hp s ((List.dropLast_sublist p).subset hs)

/-- Normalizing resolves every way up. -/
theorem Upless.normalFrom {done : Path} (hdone : Upless done) (p : Path) :
    Upless (Path.normalFrom done p) := by
  induction p generalizing done with
  | nil => exact hdone
  | cons s p ih =>
      rw [Path.normalFrom]
      split
      · exact ih hdone.dropLast
      · rename_i hs
        exact ih (hdone.concat hs)

/-- What links may still add to a way while some are being followed. -/
def pendingWeight (active : List Path) : List (Path × Entry) → Nat
  | [] => 0
  | (p, .link t) :: es =>
    if p ∈ active then pendingWeight active es
    else (partsOf t).length + 1 + pendingWeight active es
  | _ :: es => pendingWeight active es

theorem pendingWeight_nil (d : Disk) : pendingWeight [] d.entries = linkWeight d := by
  obtain ⟨es⟩ := d
  unfold linkWeight
  simp only
  induction es with
  | nil => rfl
  | cons x es ih =>
      obtain ⟨p, e⟩ := x
      rw [List.foldr_cons, ← ih]
      cases e with
      | directory => rfl
      | file bytes => rfl
      | link t => exact if_neg List.not_mem_nil

theorem pendingWeight_cons_le (p : Path) (active : List Path) (es : List (Path × Entry)) :
    pendingWeight (p :: active) es ≤ pendingWeight active es := by
  induction es with
  | nil => exact Nat.le_refl 0
  | cons x es ih =>
      obtain ⟨q, e⟩ := x
      cases e with
      | directory => exact ih
      | file bytes => exact ih
      | link t =>
          rw [pendingWeight, pendingWeight]
          by_cases hq : q ∈ active
          · rw [if_pos hq, if_pos (List.mem_cons_of_mem _ hq)]
            exact ih
          · rw [if_neg hq]
            split <;> omega

/-- Following a link takes its weight from what is pending. -/
theorem pendingWeight_follow {p : Path} {t : String} {active : List Path} (hp : p ∉ active)
    {es : List (Path × Entry)} (h : es.lookup p = some (.link t)) :
    pendingWeight (p :: active) es + ((partsOf t).length + 1) ≤ pendingWeight active es := by
  induction es with
  | nil => exact nomatch h
  | cons x es ih =>
      obtain ⟨q, e⟩ := x
      rw [List.lookup_cons] at h
      by_cases hq : p = q
      · subst hq
        rw [beq_self_eq_true] at h
        cases h
        have hle := pendingWeight_cons_le p active es
        rw [pendingWeight, pendingWeight, if_pos List.mem_cons_self, if_neg hp]
        omega
      · rw [beq_false_of_ne hq] at h
        have hrest := ih h
        cases e with
        | directory => exact hrest
        | file bytes => exact hrest
        | link t' =>
            have hmem : q ∈ p :: active ↔ q ∈ active := by
              rw [List.mem_cons]
              exact or_iff_right (Ne.symm hq)
            rw [pendingWeight, pendingWeight]
            by_cases hactive : q ∈ active
            · rw [if_pos (hmem.mpr hactive), if_pos hactive]
              exact hrest
            · rw [if_neg (mt hmem.mp hactive), if_neg hactive]
              omega

/-- **Following links leaves no way up**, as long as the fuel covers the parts that are left and what
    links may still add. -/
theorem upless_follow {d : Disk} {fuel : Nat} {active : List Path} {here : Path}
    {rest : List String} (hhere : Upless here)
    (hfuel : rest.length + pendingWeight active d.entries < fuel) :
    Upless (d.follow fuel active here rest).1 := by
  induction fuel generalizing active here rest with
  | zero => exact absurd hfuel (Nat.not_lt_zero _)
  | succ n ih =>
      cases rest with
      | nil =>
          unfold follow
          exact hhere
      | cons name rest =>
          rw [List.length_cons] at hfuel
          unfold follow
          split
          · exact ih hhere.dropLast (by omega)
          · rename_i hname
            have hthere := hhere.concat hname
            simp only
            split
            · rename_i target hfind
              split
              · exact upless_nil.normalFrom _
              · rename_i hactive
                have hnew : here ++ [name] ∉ active := by simpa using hactive
                have hlookup : d.entries.lookup (here ++ [name]) = some (.link target) := by
                  unfold find? at hfind
                  rwa [if_neg (by simp)] at hfind
                have hweight := pendingWeight_follow hnew hlookup
                have hstart : Upless (if isAbsolute target then [] else here) := by
                  split
                  · exact upless_nil
                  · exact hhere
                have htarget : Upless (d.follow n ((here ++ [name]) :: active)
                    (if isAbsolute target then [] else here) (partsOf target)).1 :=
                  ih hstart (by omega)
                split
                · rename_i hp
                  rw [hp] at htarget
                  exact ih htarget (by omega)
                · exact upless_nil.normalFrom _
            · exact ih hthere (by omega)

/-- **What a text names leads nowhere up**, if the directory that it starts from does not. -/
theorem upless_resolve {d : Disk} {here p : Path} {text : String} (hhere : Upless here)
    (h : d.resolve here text = .ok p) : Upless p := by
  unfold resolve at h
  split at h
  · exact nomatch h
  · simp only at h
    split at h
    · exact nomatch h
    · cases h
      refine upless_follow ?_ (by rw [pendingWeight_nil]; omega)
      split
      · exact upless_nil
      · exact hhere

end Scaffold.Disk
