import Scaffold.Disk.Path
import Scaffold.Proofs.Text.Break

/-!
# `Scaffold.Proofs.Disk.Path` — paths and the texts that name them

A text is read into parts without slashes (`mem_partsOf`), and parts joined by slashes are read back
(`partsOf_joined`). The way from one path to another, walked from the first one, leads to the second
(`normalFrom_moduleFrom`).

## Contents
- **Parts.** `IsPart`, `partsOf_slash`, `partsOf_part`, `partsOf_joined`, `join_part`,
  `directoriesOf`, `exists_partsOf_append`, `partsOf_shownPath`.
- **Below.** `below?_eq_some_iff`.
- **Ways.** `split_spec`, `normalFrom_wayFrom`, `normalFrom_moduleFrom`.
-/

namespace Scaffold.Disk

open Text (splitOn)

/-! ## Parts -/

/-- A text that is one part of a path. Two points are a part, though no name. -/
def IsPart (s : String) : Prop := s ≠ "" ∧ s ≠ "." ∧ '/' ∉ s.toList

instance (s : String) : Decidable (IsPart s) := by unfold IsPart; infer_instance

/-- What is read from a text are parts. -/
theorem mem_partsOf {s text : String} (h : s ∈ partsOf text) : IsPart s := by
  unfold partsOf at h
  obtain ⟨cs, hcs, rfl⟩ := List.mem_map.mp h
  obtain ⟨hsplit, hkeep⟩ := List.mem_filter.mp hcs
  rw [Bool.and_eq_true, decide_eq_true_eq, decide_eq_true_eq] at hkeep
  refine ⟨?_, ?_, ?_⟩
  · intro he
    exact hkeep.1 (by simpa using congrArg String.toList he)
  · intro he
    exact hkeep.2 (by simpa using congrArg String.toList he)
  · rw [String.toList_ofList]
    exact Text.not_mem_of_mem_splitOn hsplit

/-- A slash keeps apart what stands before and after it. -/
theorem partsOf_slash (a b : String) : partsOf (a ++ "/" ++ b) = partsOf a ++ partsOf b := by
  have htext : (a ++ "/" ++ b).toList = a.toList ++ '/' :: b.toList := by simp
  unfold partsOf
  rw [htext, Text.splitOn_append_cons, List.filter_append, List.map_append]

theorem partsOf_part {s : String} (h : IsPart s) : partsOf s = [s] := by
  obtain ⟨hempty, hpoint, hslash⟩ := h
  have h1 : s.toList ≠ [] := fun e => hempty (String.toList_injective e)
  have h2 : s.toList ≠ ['.'] := fun e => hpoint (String.toList_injective e)
  unfold partsOf
  rw [Text.splitOn_of_not_mem hslash]
  simp [h1, h2]

/-- Parts with slashes between them are read back. -/
theorem partsOf_joined {p : Path} (h : ∀ s ∈ p, IsPart s) : partsOf (Path.joined p) = p := by
  unfold Path.joined
  induction p with
  | nil => rfl
  | cons s r ih =>
      have hs := h s List.mem_cons_self
      have hr := ih fun x hx => h x (List.mem_cons_of_mem _ hx)
      cases r with
      | nil => exact partsOf_part hs
      | cons x r => rw [Text.joinWith, partsOf_slash, partsOf_part hs, hr]; rfl

theorem IsPart.relative {s : String} (h : IsPart s) : isAbsolute s = false := by
  unfold isAbsolute
  rw [decide_eq_false_iff_not]
  intro hhead
  exact h.2.2 (List.mem_of_mem_head? hhead)

/-- A part that is joined to a path comes last. -/
theorem join_part {s : String} (h : IsPart s) (p : Path) : p.join s = p ++ [s] := by
  unfold Path.join
  rw [h.relative, partsOf_part h]
  rfl

/-- A text of more than two characters without slashes is a name. -/
theorem isPart_of_length {s : String} (h : '/' ∉ s.toList) (hlen : 2 < s.toList.length) :
    IsPart s ∧ s ≠ ".." := by
  refine ⟨⟨?_, ?_, h⟩, ?_⟩
  · rintro rfl
    exact absurd hlen (by decide)
  · rintro rfl
    exact absurd hlen (by decide)
  · rintro rfl
    exact absurd hlen (by decide)

/-- The parts of a text before its last slash: the directories that it leads through. -/
def directoriesOf (text : String) : List String :=
  ((splitOn '/' text.toList).dropLast.filter fun s => s ≠ [] && s ≠ ['.']).map String.ofList

/-- The last part of a text ends as the text does, and the parts before it do not change. -/
theorem exists_partsOf_append {e : String} (h : '/' ∉ e.toList) (hlen : 1 < e.toList.length)
    (s : String) : ∃ last, partsOf (s ++ e) = directoriesOf s ++ [last ++ e] := by
  obtain ⟨front, last, hs, hsplit⟩ := Text.exists_splitOn_append h s.toList
  -- the last piece is longer than those that are dropped
  have hkeep : (last ++ e.toList ≠ [] && last ++ e.toList ≠ ['.']) = true := by
    have hlast : 1 < (last ++ e.toList).length := by rw [List.length_append]; omega
    rw [Bool.and_eq_true, decide_eq_true_eq, decide_eq_true_eq]
    constructor
    · intro hnil
      exact absurd (hnil ▸ hlast) (by decide)
    · intro hpoint
      exact absurd (hpoint ▸ hlast) (by decide)
  refine ⟨String.ofList last, ?_⟩
  unfold partsOf directoriesOf
  rw [String.toList_append, hsplit, hs, List.dropLast_concat]
  simp only [List.filter_append, List.filter_cons, hkeep, if_true, List.filter_nil,
    List.map_append, List.map_cons, List.map_nil]
  congr 2
  exact String.toList_injective (by simp)

/-- A text without slashes leads through no directories. -/
theorem directoriesOf_slashless {s : String} (h : '/' ∉ s.toList) : directoriesOf s = [] := by
  unfold directoriesOf
  rw [Text.splitOn_of_not_mem h]
  rfl

/-- Parts that a message shows are read back. -/
theorem partsOf_shownPath {p : Path} (h : ∀ s ∈ p, IsPart s) :
    partsOf (shownPath (Path.joined p)) = p := by
  have hread := partsOf_joined h
  have hrelative : isAbsolute (Path.joined p) = false := by
    cases p with
    | nil => rfl
    | cons s r =>
        obtain ⟨hempty, -, hslash⟩ := h s List.mem_cons_self
        -- the text begins as its first part does, which is with no slash
        have hhead : ∃ rest, (Path.joined (s :: r)).toList = s.toList ++ rest := by
          cases r with
          | nil => exact ⟨[], by simp [Path.joined, Text.joinWith]⟩
          | cons x r => exact ⟨_, by rw [Path.joined, Text.joinWith, String.toList_append,
              String.toList_append, List.append_assoc]⟩
        obtain ⟨rest, hrest⟩ := hhead
        unfold isAbsolute
        rw [hrest, decide_eq_false_iff_not]
        cases hs : s.toList with
        | nil => exact absurd (String.toList_injective hs) hempty
        | cons c cs =>
            intro hc
            rw [List.cons_append, List.head?_cons, Option.some.injEq] at hc
            exact hslash (hs ▸ hc ▸ List.mem_cons_self)
  unfold shownPath
  simp only [hread, hrelative, Bool.false_eq_true, if_false]
  split
  · rename_i hnil
    rw [← hread, Path.joined, hnil]
    rfl
  · exact hread

/-! ## Below -/

/-- A path lies below another one if it goes on from it. -/
theorem below?_eq_some_iff {root p q : Path} : Path.below? root p = some q ↔ p = root ++ q := by
  induction root generalizing p with
  | nil => simp [Path.below?]
  | cons a root ih =>
      cases p with
      | nil => simp [Path.below?]
      | cons b p =>
          by_cases h : a = b
          · subst h
            simp [Path.below?, ih]
          · simp [Path.below?, h, Ne.symm h]

/-! ## Ways -/

/-- What is left of two paths, behind a front that both have. -/
theorem split_spec (p q : Path) :
    ∃ c, p = c ++ (Path.split p q).1 ∧ q = c ++ (Path.split p q).2 := by
  fun_induction Path.split p q with
  | case1 p b q ih =>
      obtain ⟨c, hp, hq⟩ := ih
      exact ⟨b :: c, by rw [List.cons_append, ← hp], by rw [List.cons_append, ← hq]⟩
  | case2 a p b q h => exact ⟨[], rfl, rfl⟩
  | case3 p q h => exact ⟨[], rfl, rfl⟩

/-- A front that both paths have is left out. -/
theorem split_append (c p q : Path) : Path.split (c ++ p) (c ++ q) = Path.split p q := by
  induction c with
  | nil => rfl
  | cons a c ih => simp only [List.cons_append, Path.split, if_true, ih]

theorem normalFrom_append (done p q : Path) :
    Path.normalFrom done (p ++ q) = Path.normalFrom (Path.normalFrom done p) q := by
  induction p generalizing done with
  | nil => rfl
  | cons s p ih =>
      simp only [List.cons_append, Path.normalFrom]
      split <;> exact ih _

/-- Parts that are names are walked one by one. -/
theorem normalFrom_names {p : Path} (h : ∀ s ∈ p, s ≠ "..") (done : Path) :
    Path.normalFrom done p = done ++ p := by
  induction p generalizing done with
  | nil => simp [Path.normalFrom]
  | cons s p ih =>
      rw [Path.normalFrom, if_neg (h s List.mem_cons_self),
        ih (fun x hx => h x (List.mem_cons_of_mem _ hx))]
      simp

/-- As many double points as a path has parts lead out of it. -/
theorem normalFrom_up (c p : Path) : Path.normalFrom (c ++ p) (p.map fun _ => "..") = c := by
  -- the parts are left from the last one on, so the front grows by those that stay
  rw [List.map_const']
  induction p generalizing c with
  | nil => simp [Path.normalFrom]
  | cons a p ih =>
      have hp := ih (c ++ [a])
      rw [List.append_assoc, List.singleton_append] at hp
      rw [List.length_cons, List.replicate_succ', normalFrom_append, hp, Path.normalFrom, if_pos rfl,
        List.dropLast_concat, Path.normalFrom]

/-- The way from a path leads where it shall, if the parts of the target beyond the common front are
    names. -/
theorem normalFrom_wayFrom {start target : Path}
    (h : ∀ s ∈ (Path.split start target).2, s ≠ "..") :
    Path.normalFrom start (Path.wayFrom start target) = target := by
  obtain ⟨c, hstart, htarget⟩ := split_spec start target
  have hup := normalFrom_up c (Path.split start target).1
  rw [← hstart] at hup
  -- up to what both paths have in common, and down from there
  unfold Path.wayFrom
  rw [normalFrom_append, hup, normalFrom_names h, ← htarget]

/-- **The path of an import leads from `start` to `target`.** It is read as a text and walked part by
    part. -/
theorem normalFrom_moduleFrom {start target : Path}
    (h : ∀ s ∈ (Path.split start target).2, IsPart s ∧ s ≠ "..") :
    Path.normalFrom start (partsOf (Path.moduleFrom start target)) = target := by
  have hway := normalFrom_wayFrom fun s hs => (h s hs).2
  have hparts : ∀ s ∈ Path.wayFrom start target, IsPart s := by
    intro s hs
    rcases List.mem_append.mp hs with hs | hs
    · obtain ⟨_, _, rfl⟩ := List.mem_map.mp hs
      decide
    · exact (h s hs).1
  have hread : partsOf (Path.moduleFrom start target) = Path.wayFrom start target := by
    unfold Path.moduleFrom
    split
    · rename_i hnil
      rw [hnil]
      decide
    · simp only
      split
      · exact partsOf_joined hparts
      · rw [show "./" = "." ++ "/" from rfl, partsOf_slash, partsOf_joined hparts]
        rfl
  rw [hread, hway]

end Scaffold.Disk
