import Scaffold.Proofs.Disk.Writing

/-!
# `Scaffold.Proofs.Disk.Outline` — disks whose files hold nothing

What a file holds decides neither where paths lead nor what can be written. A disk is followed with its
files emptied (`outline`): the walks on it are the same, and files go to it as they go to the disk
itself (`outline_write`). So of two lists of files with the same paths, both can be written or neither
(`outline_writeAll_eq`).

## Contents
- **Outlines.** `Entry.outline`, `outline`, `find?_outline`, `outline_put`.
- **Paths.** `walk_outline`, `locate_outline`.
- **Writing.** `outline_write`, `outline_writeAll`, `outline_writeAll_eq`.
-/

namespace Scaffold

/-! ## Outlines -/

/-- An entry without what it holds, if it is a file. -/
def Entry.outline : Entry → Entry
  | .file _ => .file []
  | e => e

namespace Disk

/-- The disk with nothing in its files. -/
def outline (d : Disk) : Disk := ⟨d.entries.map fun (p, e) => (p, e.outline)⟩

variable (d : Disk)

theorem find?_outline (p : Path) : d.outline.find? p = (d.find? p).map Entry.outline := by
  unfold find? outline
  split
  · rfl
  · induction d.entries with
    | nil => rfl
    | cons x es ih =>
        obtain ⟨q, e⟩ := x
        rw [List.map_cons, List.lookup_cons, List.lookup_cons]
        cases p == q with
        | true => rfl
        | false => exact ih

theorem linkWeight_outline : linkWeight d.outline = linkWeight d := by
  obtain ⟨es⟩ := d
  unfold linkWeight outline
  simp only
  induction es with
  | nil => rfl
  | cons x es ih =>
      obtain ⟨p, e⟩ := x
      rw [List.map_cons, List.foldr_cons, List.foldr_cons, ih]
      cases e <;> rfl

theorem outline_put (q : Path) (e : Entry) : (d.put q e).outline = d.outline.put q e.outline := by
  unfold put outline
  simp only [List.map_cons, List.filter_map]
  rfl

/-! ## Paths -/

theorem walk_outline (follow : Bool) (fuel links : Nat) (here : Path) (rest : List String) :
    d.outline.walk follow fuel links here rest = d.walk follow fuel links here rest := by
  have hdir : ∀ p, d.outline.find? p = some .directory ↔ d.find? p = some .directory := by
    intro p
    rw [find?_outline]
    cases d.find? p with
    | none => exact Iff.rfl
    | some e => cases e <;> simp [Entry.outline]
  induction fuel generalizing links here rest with
  | zero => rfl
  | succ n ih =>
      cases rest with
      | nil => rfl
      | cons name rest =>
          rw [walk, walk]
          simp only [ne_eq, hdir]
          simp only [ih, find?_outline]
          -- the walk asks only whether there is something, and whether it is a link
          cases d.find? (here ++ [name]) with
          | none => rfl
          | some e => cases e <;> rfl

/-- **A path leads where it does, whatever the files hold.** -/
theorem locate_outline (follow : Bool) (p : Path) :
    d.outline.locate follow p = d.locate follow p := by
  unfold locate
  rw [linkWeight_outline, walk_outline]

/-! ## Writing -/

theorem outline_write (p : Path) (text : String) :
    (d.write p text).map outline = d.outline.write p "" := by
  have hempty : Text.Utf8.encode "" = [] := by simp [Text.Utf8.encode]
  have hput : ∀ q, (d.put q (.file (Text.Utf8.encode text))).outline =
      d.outline.put q (.file (Text.Utf8.encode "")) := by
    intro q
    rw [hempty]
    exact outline_put d q _
  unfold write
  rw [locate_outline]
  split
  · rfl
  · cases d.locate true p with
    | error e => rfl
    | ok q =>
        simp only [find?_outline]
        cases d.find? q with
        | none => exact congrArg Except.ok (hput q)
        | some e =>
            cases e with
            | directory => rfl
            | file bytes => exact congrArg Except.ok (hput q)
            | link t => exact congrArg Except.ok (hput q)

theorem outline_writeAll (fs : List (Path × String)) :
    (d.writeAll fs).map outline = d.outline.writeAll ((fs.map Prod.fst).map fun p => (p, "")) := by
  induction fs generalizing d with
  | nil => rfl
  | cons x fs ih =>
      obtain ⟨p, text⟩ := x
      rw [List.map_cons, List.map_cons, writeAll, writeAll, ← outline_write d p text]
      cases d.write p text with
      | error f => rfl
      | ok d' => exact ih d'

/-- **Texts do not decide what can be written.** -/
theorem outline_writeAll_eq {d d' : Disk} (hd : d.outline = d'.outline)
    {fs gs : List (Path × String)} (h : fs.map Prod.fst = gs.map Prod.fst) :
    (d.writeAll fs).map outline = (d'.writeAll gs).map outline := by
  rw [outline_writeAll, outline_writeAll, hd, h]

end Disk

end Scaffold
