import Scaffold.Proofs.Disk.Writing

/-!
# `Scaffold.Proofs.Disk.Frame` — disks with the same directories and links

Two disks have the same frame if their directories and links are the same, whatever files they hold.
Files end walks and nothing more, so that paths lead to the same places on both (`locate_sameFrame`)
and the same files can be written to both (`write_sameFrame`). What is found once some files are
written to both does not depend on the files that were there before (`find?_writeAll_sameFrame`).

## Contents
- **Frames.** `SameFrame`, `SameFrame.put`, `sameFrame_write`, `sameFrame_writeAll`.
- **Paths.** `locate_sameFrame`.
- **Writing.** `write_sameFrame`, `find?_writeAll_sameFrame`.
-/

namespace Scaffold.Disk

/-! ## Frames -/

/-- The directories and links of two disks are the same. -/
structure SameFrame (d d' : Disk) : Prop where
  directory : ∀ p, d'.find? p = some .directory ↔ d.find? p = some .directory
  link : ∀ p t, d'.find? p = some (.link t) ↔ d.find? p = some (.link t)

/-- Nothing, or a file: what may differ where frames are the same. -/
def Loose (e : Option Entry) : Prop := e = none ∨ ∃ bytes, e = some (.file bytes)

namespace SameFrame

variable {d d' d'' : Disk}

theorem refl (d : Disk) : SameFrame d d := ⟨fun _ => Iff.rfl, fun _ _ => Iff.rfl⟩

theorem symm (h : SameFrame d d') : SameFrame d' d :=
  ⟨fun p => (h.directory p).symm, fun p t => (h.link p t).symm⟩

theorem trans (h : SameFrame d d') (g : SameFrame d' d'') : SameFrame d d'' :=
  ⟨fun p => (g.directory p).trans (h.directory p), fun p t => (g.link p t).trans (h.link p t)⟩

theorem kept (h : SameFrame d d') : FrameKept d d' := ⟨fun p => (h.directory p).mpr, h.link⟩

theorem put (h : SameFrame d d') {q : Path} (hq : q ≠ []) (e : Entry) :
    SameFrame (d.put q e) (d'.put q e) := by
  constructor
  · intro p
    rw [find?_put hq, find?_put hq]
    by_cases hp : p = q
    · rw [if_pos hp, if_pos hp]
    · rw [if_neg hp, if_neg hp]
      exact h.directory p
  · intro p t
    rw [find?_put hq, find?_put hq]
    by_cases hp : p = q
    · rw [if_pos hp, if_pos hp]
    · rw [if_neg hp, if_neg hp]
      exact h.link p t

end SameFrame

variable {d d' : Disk}

/-- A file in place of nothing or of a file leaves the frame as it is. -/
theorem sameFrame_put_file {q : Path} (hq : Loose (d.find? q)) (bytes : List UInt8) :
    SameFrame d (d.put q (.file bytes)) := by
  have hne : q ≠ [] := by
    rintro rfl
    rcases hq with hq | ⟨bytes, hq⟩
    · exact nomatch hq
    · exact nomatch hq
  have hsolid : ∀ e, (∀ bytes, e ≠ .file bytes) → d.find? q ≠ some e := by
    intro e he hfind
    rw [hfind] at hq
    rcases hq with hq | ⟨bytes, hq⟩
    · exact nomatch hq
    · exact he bytes (Option.some.inj hq)
  constructor
  · intro p
    rw [find?_put hne]
    by_cases hp : p = q
    · subst hp
      rw [if_pos rfl]
      exact ⟨nofun, fun h => absurd h (hsolid _ nofun)⟩
    · rw [if_neg hp]
  · intro p t
    rw [find?_put hne]
    by_cases hp : p = q
    · subst hp
      rw [if_pos rfl]
      exact ⟨nofun, fun h => absurd h (hsolid _ nofun)⟩
    · rw [if_neg hp]

/-- On a tree, a path that is followed to its end leads to a file if it leads to no directory. -/
theorem loose_of_locate (ht : IsTree d) {p q : Path} (hq : d.locate true p = .ok q)
    (hdir : d.find? q ≠ some .directory) : Loose (d.find? q) := by
  have hend := endsAt_locate ht hq
  unfold EndsAt at hend
  cases hfind : d.find? q with
  | none => exact .inl rfl
  | some e =>
      cases e with
      | directory => exact absurd hfind hdir
      | file bytes => exact .inr ⟨bytes, rfl⟩
      | link t =>
          rw [hfind] at hend
          exact nomatch hend

theorem sameFrame_write (ht : IsTree d) {p : Path} {text : String}
    (h : d.write p text = .ok d') : SameFrame d d' := by
  obtain ⟨q, hq, hdir, rfl⟩ := write_eq_ok h
  exact sameFrame_put_file (loose_of_locate ht hq hdir) _

theorem sameFrame_writeAll (ht : IsTree d) {fs : List (Path × String)}
    (h : d.writeAll fs = .ok d') : SameFrame d d' := by
  induction fs generalizing d with
  | nil =>
      cases h
      exact .refl _
  | cons x fs ih =>
      obtain ⟨d₁, hw, hrest⟩ := writeAll_cons_eq_ok.mp h
      exact (sameFrame_write ht hw).trans (ih (grown_write ht hw).2 hrest)

/-! ## Paths -/

/-- **On disks with the same frame, paths lead to the same places.** -/
theorem locate_sameFrame (h : SameFrame d d') {follow : Bool} {p q : Path} :
    d'.locate follow p = .ok q ↔ d.locate follow p = .ok q :=
  ⟨locate_of_frameKept h.symm.kept, locate_of_frameKept h.kept⟩

/-! ## Writing -/

/-- **A file that can be written can be written on every disk with the same frame**, and the frames
    stay the same. -/
theorem write_sameFrame (h : SameFrame d d') {p : Path} {text : String} {d₁ : Disk}
    (hw : d.write p text = .ok d₁) :
    ∃ d₂, d'.write p text = .ok d₂ ∧ SameFrame d₁ d₂ := by
  obtain ⟨q, hq, hdir, rfl⟩ := write_eq_ok hw
  refine ⟨d'.put q (.file (Text.Utf8.encode text)), ?_, h.put (ne_nil_of_find? hdir) _⟩
  have hdir' : d'.find? q ≠ some .directory := mt (h.directory q).mp hdir
  unfold write at hw ⊢
  split at hw
  · exact nomatch hw
  · rename_i hnul
    rw [if_neg hnul, (locate_sameFrame h).mpr hq]
    simp only

/-- **What is found once some files are written** does not depend on the files that were there before:
    where none of them goes both disks are as before, and elsewhere the last one counts. -/
theorem find?_writeAll_sameFrame (ht : IsTree d) (hs : SameFrame d d') {fs : List (Path × String)}
    {d₁ d₂ : Disk} (hf : d.writeAll fs = .ok d₁) (hg : d'.writeAll fs = .ok d₂) {q : Path}
    (hbase : (∀ x ∈ fs, d.locate true x.1 ≠ .ok q) → d'.find? q = d.find? q) :
    d₂.find? q = d₁.find? q := by
  induction fs generalizing d d' with
  | nil =>
      cases hf
      cases hg
      exact hbase fun x hx => absurd hx List.not_mem_nil
  | cons x fs ih =>
      obtain ⟨e, hw, hrest⟩ := writeAll_cons_eq_ok.mp hf
      obtain ⟨e', hw', hrest'⟩ := writeAll_cons_eq_ok.mp hg
      obtain ⟨e'', hw'', hs'⟩ := write_sameFrame hs hw
      obtain rfl : e' = e'' := Except.ok.inj (hw'.symm.trans hw'')
      refine ih (grown_write ht hw).2 hs' hrest hrest' fun hnone => ?_
      have hframe := sameFrame_write ht hw
      obtain ⟨r, hr, hdir, rfl⟩ := write_eq_ok hw
      obtain ⟨r', hr', -, rfl⟩ := write_eq_ok hw'
      -- both files go to the same place
      obtain rfl : r' = r := Except.ok.inj (hr'.symm.trans ((locate_sameFrame hs).mpr hr))
      have hne := ne_nil_of_find? hdir
      rw [find?_put hne, find?_put hne]
      by_cases hq : q = r'
      · rw [if_pos hq, if_pos hq]
      · rw [if_neg hq, if_neg hq]
        refine hbase fun y hy => ?_
        rcases List.mem_cons.mp hy with rfl | hy
        · rw [hr]
          exact fun h => hq (Except.ok.inj h).symm
        · exact fun h => hnone y hy ((locate_sameFrame hframe).mpr h)

end Scaffold.Disk
