import Mathlib.Data.List.Nodup
import Scaffold.Proofs.Disk.Resolving
import Scaffold.Proofs.Generation.Files

/-!
# `Scaffold.Proofs.Generation.Places` — where the files of a run go

A name that was converted is one part of a path, so a file lies in the directory of its kind
(`place_entityDraft`). Files of different kinds never share a place, whatever their entities are
called: the last part of a path tells the kind (`mark_place`). Only entities can clash, and they do
exactly if their files of one kind do (`nodup_places_iff`).

## Contents
- **Names.** `Job.Extended`, `Job.Slashless`, `isPart_append_ending`.
- **Places.** `place_entityDraft`, `place_index`, `place_module`, `slash_not_mem_module`, `exists_way`,
  `upless_place`, `isPart_of_place`.
- **Kinds.** `mark`, `Job.groups`, `sequence_eq`, `mark_place`.
- **Clashes.** `nodup_places_iff`, `nodup_places_iff_stems`.
-/

namespace Scaffold.Generation

open Disk (IsPart Path isAbsolute partsOf)
open Naming (CaseStyle)
open Schema (Entity)
open Text (splitOn)

/-! ## Names -/

/-- The extension of a job consists of letters and digits. -/
def Job.Extended (j : Job) : Prop := ∀ c ∈ j.extension.toList, Text.isAlnum c = true

/-- No slash is left in what the files of the entities are called after. -/
def Job.Slashless (j : Job) : Prop :=
  ∀ e ∈ j.entities, '/' ∉ (j.policy.fileStem e.fileName).toList

variable {j : Job}

/-- What the name of a file ends with. -/
def Job.ending (j : Job) (a : Artifact) : String := "." ++ a.name ++ "." ++ j.extension

theorem Job.Extended.not_mem (h : j.Extended) {c : Char} (hc : Text.isAlnum c = false) :
    c ∉ j.extension.toList := by
  intro hmem
  rw [h c hmem] at hc
  exact absurd hc (by simp)

theorem fileName_eq {a : Artifact} (ha : a ∈ Layout.entityKinds) (base : String) :
    j.fileName a base = j.policy.fileStem base ++ j.ending a := by
  unfold Job.fileName Job.ending
  rcases Layout.cases_entityKind ha with rfl | rfl | rfl | rfl <;>
    simp only [Naming.Policy.fileName, Artifact.fileSuffix, String.append_assoc]

theorem fileName_module (base : String) : j.fileName .module base = base ++ j.ending .module := by
  unfold Job.fileName Job.ending
  simp only [Naming.Policy.fileName, Artifact.fileSuffix, String.append_assoc]

theorem slash_not_mem_ending (h : j.Extended) (a : Artifact) : '/' ∉ (j.ending a).toList := by
  have hext := h.not_mem (c := '/') rfl
  unfold Job.ending
  simp only [String.toList_append, List.mem_append, not_or]
  refine ⟨⟨⟨by decide, ?_⟩, by decide⟩, hext⟩
  cases a <;> decide

theorem length_ending (a : Artifact) : 2 < (j.ending a).toList.length := by
  unfold Job.ending
  simp only [String.toList_append, List.length_append]
  have hname : 1 ≤ a.name.toList.length := by cases a <;> decide
  have hpoint : ".".toList.length = 1 := rfl
  omega

/-- A name without slashes is one part of a path. -/
theorem isPart_append_ending (h : j.Extended) (a : Artifact) {stem : String}
    (hstem : '/' ∉ stem.toList) :
    IsPart (stem ++ j.ending a) ∧ stem ++ j.ending a ≠ ".." := by
  refine Disk.isPart_of_length ?_ ?_
  · rw [String.toList_append, List.mem_append, not_or]
    exact ⟨hstem, slash_not_mem_ending h a⟩
  · rw [String.toList_append, List.length_append]
    have hlen := length_ending (j := j) a
    omega

/-! ## Places -/

/-- **A file lies in the directory of its kind**, under its name. -/
theorem place_entityDraft (h : j.Extended) {a : Artifact} (ha : a ∈ Layout.entityKinds) {e : Entity}
    (he : '/' ∉ (j.policy.fileStem e.fileName).toList) :
    (j.entityDraft a e).place = j.layout.directory a ++ [j.fileName a e.fileName] := by
  unfold Draft.place
  refine Disk.join_part ?_ _
  show IsPart (j.fileName a e.fileName)
  rw [fileName_eq ha]
  exact (isPart_append_ending h a he).1

theorem fileStem_index (p : Naming.Policy) :
    p.fileStem "index" = "index" ∨ p.fileStem "index" = "Index" := by
  have hlegal := p.fileCase_legal
  unfold Naming.Policy.fileStem
  generalize p.fileCase = s at hlegal ⊢
  cases s with
  | camel => exact .inl (by decide)
  | pascal => exact .inr (by decide)
  | param => exact .inl (by decide)
  | verbatim => exact .inl (by decide)
  | snake => exact absurd hlegal (by decide)

/-- The index is called by one word. -/
theorem marks_not_mem_index (p : Naming.Policy) :
    '/' ∉ (p.fileStem "index").toList ∧ '.' ∉ (p.fileStem "index").toList := by
  rcases fileStem_index p with h | h <;> rw [h] <;> decide

theorem fileName_index (base : String) :
    j.fileName .index base = j.policy.fileStem "index" ++ "." ++ j.extension := rfl

theorem isPart_index (h : j.Extended) {base : String} :
    IsPart (j.fileName .index base) ∧ j.fileName .index base ≠ ".." := by
  rw [fileName_index]
  refine Disk.isPart_of_length ?_ ?_
  · simp only [String.toList_append, List.mem_append, not_or]
    exact ⟨⟨(marks_not_mem_index j.policy).1, by decide⟩, h.not_mem rfl⟩
  · have hlen : 2 < (j.policy.fileStem "index").toList.length := by
      rcases fileStem_index j.policy with hi | hi <;> rw [hi] <;> decide
    rw [String.toList_append, List.length_append, String.toList_append, List.length_append]
    omega

theorem place_index (h : j.Extended) :
    (j.jointDraft .index).place = j.layout.directory .index ++ [j.fileName .index j.module] :=
  Disk.join_part (isPart_index h).1 _

theorem place_module (h : j.Extended) (hm : '/' ∉ j.module.toList) :
    (j.jointDraft .module).place = j.layout.root ++ [j.fileName .module j.module] := by
  have hdirectory : j.layout.directory .module = j.layout.root := by
    unfold Layout.directory
    split <;> rfl
  unfold Draft.place
  rw [← hdirectory]
  refine Disk.join_part ?_ _
  show IsPart (j.fileName .module j.module)
  rw [fileName_module]
  exact (isPart_append_ending h .module hm).1

theorem place_project : j.projectDraft.place = j.layout.root ++ [Job.projectFile] :=
  Disk.join_part (show IsPart "tsconfig.json" by decide) _

variable {w : Workspace} {es : List Entity} {o : Schema.Options}

theorem extended_jobOf (h : o.Legal) {root : Path} : (jobOf w es o h root).Extended := h.extension.2

/-- The module is called as the last part of the root. -/
theorem slash_not_mem_module (h : o.Legal) {root : Path} (hhere : Disk.Slashless w.here)
    (hroot : w.disk.resolve w.here o.resultsPath = .ok root) (hne : root ≠ []) :
    '/' ∉ (jobOf w es o h root).module.toList := by
  show '/' ∉ (root.getLast?.getD "").toList
  rw [List.getLast?_eq_some_getLast hne]
  exact Disk.slashless_resolve hhere hroot _ (List.getLast_mem hne)

/-- **All files lie below the root**, if no name holds a slash, and no part of the way to them leads
    up again. -/
theorem exists_way (h : j.Extended) (hs : j.Slashless) (hm : '/' ∉ j.module.toList) :
    ∀ x ∈ j.sequence, ∃ way, x.place = j.layout.root ++ way ∧ ∀ s ∈ way, s ≠ ".." := by
  have hname : ∀ (a : Artifact) (name : String), name ≠ ".." →
      ∃ way, j.layout.directory a ++ [name] = j.layout.root ++ way ∧ ∀ s ∈ way, s ≠ ".." := by
    intro a name hne
    refine ⟨Layout.below j.layout.flat a ++ [name], ?_, fun s hs => ?_⟩
    · rw [Layout.directory_eq, List.append_assoc]
    rcases List.mem_append.mp hs with hs | hs
    · exact (Layout.isPart_below _ _ s hs).2
    · rw [List.mem_singleton.mp hs]
      exact hne
  intro x hx
  rcases Job.mem_sequence_cases hx with ⟨a, ha, e, he, rfl⟩ | rfl | rfl | rfl
  · rw [place_entityDraft h ha (hs e he)]
    refine hname a _ ?_
    rw [fileName_eq ha]
    exact (isPart_append_ending h a (hs e he)).2
  · rw [place_index h]
    exact hname .index _ (isPart_index h).2
  · rw [place_module h hm]
    refine ⟨_, rfl, fun s hs => ?_⟩
    rw [List.mem_singleton.mp hs, fileName_module]
    exact (isPart_append_ending h .module hm).2
  · rw [place_project]
    exact ⟨_, rfl, by decide⟩

/-- No part of the way to a file leads up, if none does on the way to the root. -/
theorem upless_place (h : j.Extended) (hs : j.Slashless) (hm : '/' ∉ j.module.toList)
    (hup : Disk.Upless j.layout.root) {x : Draft} (hx : x ∈ j.sequence) :
    j.layout.root <+: x.place ∧ Disk.Upless x.place := by
  obtain ⟨way, hway, hnames⟩ := exists_way h hs hm x hx
  rw [hway]
  exact ⟨List.prefix_append _ _, List.forall_mem_append.mpr ⟨hup, hnames⟩⟩

/-- What a file's place adds to the root consists of parts. -/
theorem isPart_of_place {x : Draft} (hx : x ∈ j.sequence) {way : Path}
    (hway : x.place = j.layout.root ++ way) : ∀ s ∈ way, IsPart s := by
  have hdirectory : ∃ sub, x.directory = j.layout.root ++ sub ∧ ∀ s ∈ sub, IsPart s ∧ s ≠ ".." := by
    have hkind : ∀ a, ∃ sub, j.layout.directory a = j.layout.root ++ sub ∧
        ∀ s ∈ sub, IsPart s ∧ s ≠ ".." :=
      fun a => ⟨_, Layout.directory_eq j.layout a, Layout.isPart_below _ a⟩
    rcases Job.mem_sequence_cases hx with ⟨a, _, e, _, rfl⟩ | rfl | rfl | rfl
    · exact hkind a
    · exact hkind .index
    · exact hkind .module
    · exact ⟨[], (List.append_nil _).symm, fun _ h => absurd h List.not_mem_nil⟩
  obtain ⟨sub, hsub, hparts⟩ := hdirectory
  unfold Draft.place Path.join at hway
  split at hway
  · intro s hs
    exact Disk.mem_partsOf (hway ▸ List.mem_append_right _ hs)
  · rw [hsub, List.append_assoc] at hway
    rw [← List.append_cancel_left hway]
    intro s hs
    rcases List.mem_append.mp hs with h | h
    · exact (hparts s h).1
    · exact Disk.mem_partsOf h

/-! ## Kinds -/

/-- What tells the kind of a file: the piece before the extension of its name, read from the end. -/
def mark (p : Path) : Option (List Char) :=
  p.getLast?.bind fun s => (splitOn '.' s.toList.reverse)[1]?

/-- The groups of files of a run: those of each kind, and the configuration of the compiler. -/
def Job.groups (j : Job) : List (Option Artifact) :=
  j.kinds.map some ++ if j.layout.flat then [] else [none]

/-- The files of a group. -/
def Job.group (j : Job) : Option Artifact → List Draft
  | some a => j.drafts a
  | none => [j.projectDraft]

/-- What the file names of a group end with, before the extension. -/
def Job.groupName (j : Job) : Option Artifact → String
  | some .index => j.policy.fileStem "index"
  | some a => a.name
  | none => "tsconfig"

theorem sequence_eq (j : Job) : j.sequence = j.groups.flatMap j.group := by
  rw [← j.flatMap_drafts_plan]
  unfold Job.plan Job.groups
  cases j.layout.flat <;>
    simp only [List.flatMap_append, List.flatMap_map, Bool.false_eq_true, if_true, if_false] <;> rfl

theorem group_entityKind (j : Job) {a : Artifact} (ha : a ∈ Layout.entityKinds) :
    j.group (some a) = j.entities.map (j.entityDraft a) := by
  rw [← j.entityDrafts_eq ha, Job.group, Job.drafts]
  rcases Layout.cases_entityKind ha with rfl | rfl | rfl | rfl <;> rfl

theorem nodup_groups (j : Job) : j.groups.Nodup := by
  unfold Job.groups Job.kinds
  cases j.layout.flat <;> cases j.indexFile <;> decide

theorem groupName_injective {g g' : Option Artifact} (h : j.groupName g = j.groupName g') :
    g = g' := by
  have hindex := fileStem_index j.policy
  unfold Job.groupName at h
  generalize j.policy.fileStem "index" = stem at h hindex
  rcases hindex with rfl | rfl <;> rcases g with _ | (_ | _ | _ | _ | _ | _) <;>
    rcases g' with _ | (_ | _ | _ | _ | _ | _) <;>
    first
      | rfl
      | exact absurd h (by decide)

/-- A path whose last part ends with a kind and an extension is marked with the kind. -/
theorem mark_of_getLast? {p : Path} {front kind ext : List Char} {s : String}
    (hlast : p.getLast? = some s) (hs : s.toList = front ++ '.' :: (kind ++ '.' :: ext))
    (hext : '.' ∉ ext) (hkind : '.' ∉ kind) : mark p = some kind.reverse := by
  unfold mark
  rw [hlast, Option.bind_some, hs]
  have hreverse : (front ++ '.' :: (kind ++ '.' :: ext)).reverse =
      ext.reverse ++ '.' :: (kind.reverse ++ '.' :: front.reverse) := by simp
  rw [hreverse, Text.splitOn_append_cons, Text.splitOn_append_cons,
    Text.splitOn_of_not_mem (by simpa using hext), Text.splitOn_of_not_mem (by simpa using hkind)]
  rfl

theorem mark_place_ending (h : j.Extended) (a : Artifact) {x : Draft} {stem : String}
    (hx : x.name = stem ++ j.ending a) : mark x.place = some a.name.toList.reverse := by
  obtain ⟨last, hparts⟩ := Disk.exists_partsOf_append (slash_not_mem_ending h a)
    (Nat.lt_of_succ_lt (length_ending a)) stem
  have hlast : x.place.getLast? = some (last ++ j.ending a) := by
    unfold Draft.place Path.join
    rw [hx, hparts]
    split
    · exact List.getLast?_concat
    · rw [← List.append_assoc]
      exact List.getLast?_concat
  have hchars : (last ++ j.ending a).toList =
      last.toList ++ '.' :: (a.name.toList ++ '.' :: j.extension.toList) := by simp [Job.ending]
  refine mark_of_getLast? hlast hchars (h.not_mem rfl) ?_
  cases a <;> decide

/-- **The place of a file tells which group it belongs to.** -/
theorem mark_place (h : j.Extended) {g : Option Artifact} {x : Draft} (hx : x ∈ j.group g) :
    mark x.place = some (j.groupName g).toList.reverse := by
  rcases g with _ | a
  · rw [Job.group, List.mem_singleton] at hx
    subst hx
    unfold Draft.place
    rw [show j.projectDraft.name = "tsconfig.json" from rfl, Disk.join_part (by decide)]
    unfold mark
    rw [List.getLast?_concat]
    exact (by decide : (splitOn '.' "tsconfig.json".toList.reverse)[1]? =
      some "tsconfig".toList.reverse)
  · by_cases ha : a ∈ Layout.entityKinds
    · rw [group_entityKind j ha] at hx
      obtain ⟨e, _, rfl⟩ := List.mem_map.mp hx
      rw [mark_place_ending h a (fileName_eq ha e.fileName)]
      rcases Layout.cases_entityKind ha with rfl | rfl | rfl | rfl <;> rfl
    · rcases Layout.eq_of_not_entityKind ha with rfl | rfl
      · obtain rfl : x = j.jointDraft .module := List.mem_singleton.mp hx
        exact mark_place_ending h .module (fileName_module j.module)
      · obtain rfl : x = j.jointDraft .index := List.mem_singleton.mp hx
        -- the name of the index has no kind, and is its own mark
        have hstem := marks_not_mem_index j.policy
        rw [place_index h]
        unfold mark
        rw [List.getLast?_concat, Option.bind_some, fileName_index]
        have hreverse : (j.policy.fileStem "index" ++ "." ++ j.extension).toList.reverse =
            j.extension.toList.reverse ++ '.' :: (j.policy.fileStem "index").toList.reverse := by
          simp
        rw [hreverse, Text.splitOn_append_cons,
          Text.splitOn_of_not_mem (by simpa using h.not_mem (c := '.') rfl),
          Text.splitOn_of_not_mem (by simpa using hstem.2)]
        rfl

/-! ## Clashes -/

/-- **Only files of one kind can share a place.** So the places of all files of a run are different
    exactly if those of each kind that is made per entity are. -/
theorem nodup_places_iff (h : j.Extended) :
    (j.sequence.map Draft.place).Nodup ↔
      ∀ a ∈ Layout.entityKinds, (j.entities.map fun e => (j.entityDraft a e).place).Nodup := by
  have hdisjoint : j.groups.Pairwise fun g g' =>
      List.Disjoint ((j.group g).map Draft.place) ((j.group g').map Draft.place) := by
    -- a place in two groups would be marked with both
    refine (nodup_groups j).imp fun {g g'} hne => ?_
    intro p hp hp'
    obtain ⟨x, hx, rfl⟩ := List.mem_map.mp hp
    obtain ⟨y, hy, hxy⟩ := List.mem_map.mp hp'
    have hmark := mark_place h hy
    rw [hxy, mark_place h hx, Option.some.injEq, List.reverse_inj] at hmark
    exact hne (groupName_injective (String.toList_injective hmark))
  have hkind : ∀ a ∈ Layout.entityKinds, (j.group (some a)).map Draft.place =
      j.entities.map fun e => (j.entityDraft a e).place := by
    intro a ha
    rw [group_entityKind j ha, List.map_map]
    rfl
  rw [sequence_eq, List.map_flatMap, List.nodup_flatMap]
  constructor
  · rintro ⟨hall, -⟩ a ha
    rw [← hkind a ha]
    refine hall (some a) (List.mem_append_left _ (List.mem_map_of_mem ?_))
    unfold Job.kinds
    rcases Layout.cases_entityKind ha with rfl | rfl | rfl | rfl <;> simp
  · intro hall
    refine ⟨fun g _ => ?_, hdisjoint⟩
    rcases g with _ | a
    · exact List.nodup_singleton _
    · by_cases ha : a ∈ Layout.entityKinds
      · rw [hkind a ha]
        exact hall a ha
      · rcases Layout.eq_of_not_entityKind ha with rfl | rfl <;> exact List.nodup_singleton _

/-- Without slashes the files of one kind share a place exactly if they are called after the same. -/
theorem nodup_places_iff_stems (h : j.Extended) (hs : j.Slashless) {a : Artifact}
    (ha : a ∈ Layout.entityKinds) :
    (j.entities.map fun e => (j.entityDraft a e).place).Nodup ↔
      (j.entities.map fun e => j.policy.fileStem e.fileName).Nodup := by
  have hplaces : (j.entities.map fun e => (j.entityDraft a e).place) =
      (j.entities.map fun e => j.policy.fileStem e.fileName).map fun stem =>
        j.layout.directory a ++ [stem ++ j.ending a] := by
    rw [List.map_map]
    refine List.map_congr_left fun e he => ?_
    rw [place_entityDraft h ha (hs e he), fileName_eq ha]
    rfl
  rw [hplaces]
  refine List.nodup_map_iff ?_
  intro s t hst
  have hname := List.singleton_inj.mp (List.append_cancel_left hst)
  have hchars := congrArg String.toList hname
  rw [String.toList_append, String.toList_append] at hchars
  exact String.toList_injective (List.append_cancel_right hchars)

end Scaffold.Generation
