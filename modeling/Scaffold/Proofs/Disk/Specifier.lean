import Scaffold.Proofs.Layout

/-!
# `Scaffold.Proofs.Disk.Specifier` — the way to a path as the path of an import

The way from one absolute path to another is written so that it can stand in an import. Joined to the
path that it starts from and normalized, it gives the path that it leads to (`moduleFrom_leads`). It
begins with one or two points and a slash, so that it is not taken for the name of a package, unless
it goes straight down to a name that begins with a point itself.

## Contents
- **Paths as texts.** `IsNormalText`, `joinWith_splitOn`, `text_partsOf`.
- **Specifiers.** `IsRelative`, `not_isRelative_joined`, `cases_wayFrom`, `isRelative_moduleFrom_iff`,
  `isAbsolute_moduleFrom`.
- **The theorem.** `moduleFrom_leads`, `leads_siblings`.
- **Layouts.** `Layout.isRelative_importPrefixes`.
-/

namespace Scaffold.Disk

open Text (splitOn)

/-! ## Paths as texts -/

/-- An absolute path without detours: one slash in front, and no piece between slashes is empty or
    consists of one or two points. -/
def IsNormalText (t : String) : Prop :=
  ∃ rest, t.toList = '/' :: rest ∧
    (rest = [] ∨ ∀ s ∈ splitOn '/' rest, s ≠ [] ∧ s ≠ ['.'] ∧ s ≠ ['.', '.'])

/-- The pieces of a text, joined where they were cut. -/
theorem joinWith_splitOn (cs : List Char) :
    Text.joinWith "/" ((splitOn '/' cs).map String.ofList) = String.ofList cs := by
  induction cs with
  | nil => rfl
  | cons c cs ih =>
      obtain ⟨w, ws, hw⟩ := List.exists_cons_of_ne_nil (Text.splitOn_ne_nil '/' cs)
      rw [hw, List.map_cons] at ih
      rw [splitOn, hw]
      apply String.toList_injective
      by_cases hc : c = '/'
      · rw [if_pos hc, hc, List.map_cons, List.map_cons, Text.joinWith, ih]
        simp
      · rw [if_neg hc, List.map_cons]
        cases ws with
        | nil =>
            rw [List.map_nil, Text.joinWith] at ih ⊢
            rw [String.ofList_inj.mp ih]
        | cons v ws =>
            rw [List.map_cons, Text.joinWith] at ih ⊢
            have hchars := congrArg String.toList ih
            simpa using hchars

/-- A path without detours is that of its parts, which are names. -/
theorem text_partsOf {t : String} (h : IsNormalText t) :
    Path.text (partsOf t) = t ∧ ∀ s ∈ partsOf t, IsPart s ∧ s ≠ ".." := by
  obtain ⟨rest, ht, hrest⟩ := h
  have hsplit : splitOn '/' t.toList = [] :: splitOn '/' rest := by
    rw [ht, splitOn, if_pos rfl]
  rcases hrest with rfl | hpieces
  · have hparts : partsOf t = [] := by
      unfold partsOf
      rw [hsplit]
      rfl
    rw [hparts]
    exact ⟨String.toList_injective (by rw [ht]; rfl), fun s hs => absurd hs List.not_mem_nil⟩
  · -- all pieces but the empty one before the first slash are parts
    have hparts : partsOf t = (splitOn '/' rest).map String.ofList := by
      have hkept : (splitOn '/' rest).filter (fun s => s ≠ [] && s ≠ ['.']) = splitOn '/' rest :=
        List.filter_eq_self.mpr fun s hs => by simp [(hpieces s hs).1, (hpieces s hs).2.1]
      unfold partsOf
      rw [hsplit, List.filter_cons_of_neg (by simp), hkept]
    constructor
    · rw [hparts, Path.text, Path.joined, joinWith_splitOn]
      apply String.toList_injective
      rw [String.toList_append, ht]
      simp
    · intro s hs
      refine ⟨mem_partsOf hs, ?_⟩
      rintro rfl
      rw [hparts] at hs
      obtain ⟨cs, hcs, hpoints⟩ := List.mem_map.mp hs
      refine (hpieces cs hcs).2.2 ?_
      rw [← String.toList_ofList (l := cs), hpoints]
      rfl

/-! ## Specifiers -/

/-- An import of this path is looked up from the directory of the file that it stands in, and not
    among packages. -/
def IsRelative (path : String) : Prop :=
  path = "." ∨ path = ".." ∨ "./".toList <+: path.toList ∨ "../".toList <+: path.toList

instance (path : String) : Decidable (IsRelative path) :=
  inferInstanceAs (Decidable (path = "." ∨ path = ".." ∨ _ <+: _ ∨ _ <+: _))

/-- Such a path has one or two points before its first slash. -/
theorem IsRelative.exists_splitOn {path : String} (h : IsRelative path) :
    ∃ rest, splitOn '/' path.toList = ['.'] :: rest ∨ splitOn '/' path.toList = ['.', '.'] :: rest := by
  have hcut : ∀ points : List Char, '/' ∉ points → points ++ ['/'] <+: path.toList →
      ∃ rest, splitOn '/' path.toList = points :: rest := by
    rintro points hpoints ⟨r, hr⟩
    refine ⟨splitOn '/' r, ?_⟩
    rw [← hr, List.append_assoc, List.singleton_append, Text.splitOn_append_cons,
      Text.splitOn_of_not_mem hpoints]
    rfl
  rcases h with rfl | rfl | h | h
  · exact ⟨[], .inl rfl⟩
  · exact ⟨[], .inr rfl⟩
  · obtain ⟨rest, hrest⟩ := hcut ['.'] (by decide) h
    exact ⟨rest, .inl hrest⟩
  · obtain ⟨rest, hrest⟩ := hcut ['.', '.'] (by decide) h
    exact ⟨rest, .inr hrest⟩

/-- Parts that are joined begin with the first one, up to a slash if more follow. -/
theorem exists_joined_cons (s : String) (r : Path) :
    (Path.joined (s :: r)).toList = s.toList ∨
      ∃ rest, (Path.joined (s :: r)).toList = s.toList ++ '/' :: rest := by
  cases r with
  | nil => exact .inl rfl
  | cons x r =>
      refine .inr ⟨(Path.joined (x :: r)).toList, ?_⟩
      rw [Path.joined, Text.joinWith, String.toList_append, String.toList_append, List.append_assoc]
      rfl

/-- A name before all others makes no relative path. -/
theorem not_isRelative_joined {s : String} (hs : IsPart s) (hup : s ≠ "..") (r : Path) :
    ¬ IsRelative (Path.joined (s :: r)) := by
  intro h
  have hfirst : ∃ rest, splitOn '/' (Path.joined (s :: r)).toList = s.toList :: rest := by
    rcases exists_joined_cons s r with hjoined | ⟨rest, hjoined⟩
    · exact ⟨[], by rw [hjoined, Text.splitOn_of_not_mem hs.2.2]⟩
    · refine ⟨splitOn '/' rest, ?_⟩
      rw [hjoined, Text.splitOn_append_cons, Text.splitOn_of_not_mem hs.2.2]
      rfl
  obtain ⟨rest, hfirst⟩ := hfirst
  obtain ⟨rest', hpoints | hpoints⟩ := h.exists_splitOn
  · exact hs.2.1 (String.toList_injective (List.cons.inj (hfirst.symm.trans hpoints)).1)
  · exact hup (String.toList_injective (List.cons.inj (hfirst.symm.trans hpoints)).1)

theorem head?_joined {s : String} (hs : s ≠ "") (r : Path) :
    (Path.joined (s :: r)).toList.head? = s.toList.head? := by
  obtain ⟨c, cs, hchars⟩ :=
    List.exists_cons_of_ne_nil fun h : s.toList = [] => hs (String.toList_injective h)
  rcases exists_joined_cons s r with hjoined | ⟨rest, hjoined⟩
  · rw [hjoined]
  · rw [hjoined, hchars]
    rfl

variable {start target : Path}

/-- A way stays where it is, goes up first, or goes straight down. -/
theorem cases_wayFrom (start target : Path) :
    (Path.wayFrom start target = [] ∧ target = start) ∨
      (∃ r, Path.wayFrom start target = ".." :: r ∧ ∀ s rest, target ≠ start ++ s :: rest) ∨
      ∃ s r, Path.wayFrom start target = s :: r ∧ target = start ++ s :: r := by
  obtain ⟨c, hstart, htarget⟩ := split_spec start target
  unfold Path.wayFrom
  cases hsplit : Path.split start target with
  | mk up down =>
      rw [hsplit] at hstart htarget
      cases up with
      | cons a up =>
          refine .inr (.inl ⟨up.map (fun _ => "..") ++ down, rfl, ?_⟩)
          rintro s rest rfl
          have hdown := split_append start [] (s :: rest)
          rw [List.append_nil, hsplit] at hdown
          exact nomatch hdown
      | nil =>
          rw [List.append_nil] at hstart
          rw [← hstart] at htarget
          cases down with
          | nil => exact .inl ⟨rfl, by rw [htarget, List.append_nil]⟩
          | cons s r => exact .inr (.inr ⟨s, r, rfl, htarget⟩)

/-- A way that does not begin with a point is given one. -/
theorem moduleFrom_of_wayFrom {s : String} {r : List String}
    (h : Path.wayFrom start target = s :: r) (hs : s ≠ "") :
    Path.moduleFrom start target =
      if s.toList.head? = some '.' then Path.joined (s :: r) else "./" ++ Path.joined (s :: r) := by
  unfold Path.moduleFrom
  rw [h, ← head?_joined hs r]

/-- **The path of an import is relative**, unless it goes straight down to a name that begins with a
    point. -/
theorem isRelative_moduleFrom_iff (h : ∀ s ∈ (Path.split start target).2, IsPart s ∧ s ≠ "..") :
    IsRelative (Path.moduleFrom start target) ↔
      ∀ s rest, target = start ++ s :: rest → s.toList.head? ≠ some '.' := by
  rcases cases_wayFrom start target with ⟨hway, rfl⟩ | ⟨r, hway, hnot⟩ | ⟨s, r, hway, rfl⟩
  · have hpoint : Path.moduleFrom target target = "." := by
      unfold Path.moduleFrom
      rw [hway]
    rw [hpoint]
    refine iff_of_true (by decide) fun s rest hself => ?_
    exact absurd (congrArg List.length hself) (by simp)
  · rw [moduleFrom_of_wayFrom hway (by decide), if_pos (by decide)]
    refine iff_of_true ?_ fun s rest heq => absurd heq (hnot s rest)
    rcases exists_joined_cons ".." r with hjoined | ⟨rest, hjoined⟩
    · exact .inr (.inl (String.toList_injective hjoined))
    · exact .inr (.inr (.inr ⟨rest, hjoined.symm⟩))
  · have hs : IsPart s ∧ s ≠ ".." := by
      have hsplit := split_append start [] (s :: r)
      rw [List.append_nil] at hsplit
      rw [hsplit] at h
      exact h s List.mem_cons_self
    rw [moduleFrom_of_wayFrom hway hs.1.1]
    by_cases hpoint : s.toList.head? = some '.'
    · rw [if_pos hpoint]
      exact iff_of_false (not_isRelative_joined hs.1 hs.2 r) fun hnone => hnone s r rfl hpoint
    · rw [if_neg hpoint]
      refine iff_of_true (.inr (.inr (.inl ?_))) fun s' rest heq => ?_
      · rw [String.toList_append]
        exact List.prefix_append _ _
      · obtain ⟨rfl, -⟩ := List.cons.inj (List.append_cancel_left heq)
        exact hpoint

/-- The path of an import begins with a point, so that no path begins anew with it. -/
theorem isAbsolute_moduleFrom (start target : Path) :
    isAbsolute (Path.moduleFrom start target) = false := by
  have hhead : (Path.moduleFrom start target).toList.head? = some '.' := by
    unfold Path.moduleFrom
    split
    · decide
    · simp only
      split
      · assumption
      · simp
  unfold isAbsolute
  rw [hhead]
  decide

/-! ## The theorem -/

/-- **The way from a path to another one, joined to the first, gives the second.** It is read as
    relative if no name of the target begins with a point; of the names that do, only one that follows
    the whole of the first path matters. -/
theorem moduleFrom_leads {start target : String} (hstart : IsNormalText start)
    (htarget : IsNormalText target) :
    Path.text (Path.normal (Path.join (partsOf start)
        (Path.moduleFrom (partsOf start) (partsOf target)))) = target ∧
      ((∀ s ∈ partsOf target, s.toList.head? ≠ some '.') →
        IsRelative (Path.moduleFrom (partsOf start) (partsOf target))) ∧
      (IsRelative (Path.moduleFrom (partsOf start) (partsOf target)) ↔
        ∀ s rest, partsOf target = partsOf start ++ s :: rest → s.toList.head? ≠ some '.') := by
  obtain ⟨-, hnames⟩ := text_partsOf hstart
  obtain ⟨htext, hnames'⟩ := text_partsOf htarget
  have hdown : ∀ s ∈ (Path.split (partsOf start) (partsOf target)).2, IsPart s ∧ s ≠ ".." := by
    obtain ⟨c, -, hc⟩ := split_spec (partsOf start) (partsOf target)
    intro s hs
    refine hnames' s ?_
    rw [hc]
    exact List.mem_append_right c hs
  have hiff := isRelative_moduleFrom_iff hdown
  refine ⟨?_, fun hplain => hiff.mpr fun s rest heq => ?_, hiff⟩
  · have hjoin : Path.normal (Path.join (partsOf start)
        (Path.moduleFrom (partsOf start) (partsOf target))) = partsOf target := by
      unfold Path.join Path.normal
      rw [isAbsolute_moduleFrom, if_neg (by simp), normalFrom_append,
        normalFrom_names fun s hs => (hnames s hs).2, List.nil_append]
      exact normalFrom_moduleFrom hdown
    rw [hjoin, htext]
  · refine hplain s ?_
    rw [heq]
    exact List.mem_append_right _ List.mem_cons_self

/-- From a directory to the one beside it, and to one below it that is hidden. -/
theorem leads_siblings :
    Path.text (Path.normal (Path.join (partsOf "/srv/app/services") "../models")) =
        "/srv/app/models" ∧
      IsRelative "../models" ∧
      Path.text (Path.normal (Path.join (partsOf "/srv/app") ".cache/common")) =
        "/srv/app/.cache/common" ∧
      ¬ IsRelative ".cache/common" := by
  have hservices : IsNormalText "/srv/app/services" :=
    ⟨"srv/app/services".toList, by decide, .inr (by decide)⟩
  have hmodels : IsNormalText "/srv/app/models" :=
    ⟨"srv/app/models".toList, by decide, .inr (by decide)⟩
  have happ : IsNormalText "/srv/app" := ⟨"srv/app".toList, by decide, .inr (by decide)⟩
  have hcache : IsNormalText "/srv/app/.cache/common" :=
    ⟨"srv/app/.cache/common".toList, by decide, .inr (by decide)⟩
  obtain ⟨hacross, hrelative, -⟩ := moduleFrom_leads hservices hmodels
  obtain ⟨hbelow, -, hiff⟩ := moduleFrom_leads happ hcache
  have hway : Path.moduleFrom (partsOf "/srv/app/services") (partsOf "/srv/app/models") =
      "../models" := by decide +kernel
  have hway' : Path.moduleFrom (partsOf "/srv/app") (partsOf "/srv/app/.cache/common") =
      ".cache/common" := by decide +kernel
  rw [hway] at hacross hrelative
  rw [hway'] at hbelow hiff
  refine ⟨hacross, hrelative (by decide +kernel), hbelow, fun h => ?_⟩
  exact hiff.mp h ".cache" ["common"] (by decide +kernel) (by decide)

end Scaffold.Disk

/-! ## Layouts -/

namespace Scaffold.Layout

open Disk (IsRelative)

/-- **Files find each other by relative imports**, whatever the directory of the results is called. -/
theorem isRelative_importPrefixes (l : Layout) (a : Artifact) :
    ∀ x ∈ l.importPrefixes a, IsRelative x.2 := by
  have hkinds : ∀ flat b, IsRelative (Disk.Path.moduleFrom (below flat a) (below flat b)) := by
    intro flat b
    cases flat <;> cases a <;> cases b <;> decide +kernel
  intro x hx
  rcases List.mem_append.mp hx with hx | hx
  · obtain ⟨b, -, hb⟩ := List.mem_filterMap.mp hx
    obtain ⟨name, -, rfl⟩ := Option.map_eq_some_iff.mp hb
    show IsRelative (l.importPrefix a b)
    rw [importPrefix_eq]
    exact hkinds l.flat b
  · have hcommon : Disk.Path.moduleFrom (l.directory a) (l.root ++ [commonName]) =
        Disk.Path.moduleFrom (below l.flat a) [commonName] := by
      unfold Disk.Path.moduleFrom Disk.Path.wayFrom
      rw [directory_eq, Disk.split_append]
    rw [List.mem_singleton.mp hx]
    show IsRelative (Disk.Path.moduleFrom (l.directory a) (l.root ++ [commonName]))
    rw [hcommon]
    generalize l.flat = flat
    cases flat <;> cases a <;> decide +kernel

end Scaffold.Layout
