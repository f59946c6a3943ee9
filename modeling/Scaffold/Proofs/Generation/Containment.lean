import Scaffold.Proofs.Disk.Containment
import Scaffold.Proofs.Generation.Written

/-!
# `Scaffold.Proofs.Generation.Containment` — runs that stay below their root

A name that was converted cannot lead anywhere, whatever it was converted from. A name that is left as
it is can: a run goes wherever the slashes and double points in it lead (`exists_accepted_outside`).
Where such names neither begin at the root of the disk nor lead out of the directory of the results,
every file lies below it (`generate_contained`), on the disk as well as in the texts of the paths.

## Contents
- **Names.** `Harmless`, `harmless_slashless`, `stays_name`.
- **Places.** `Job.Harmless`, `exists_staying_way`.
- **The theorem.** `Contained`, `contained_run`, `generate_contained`.
- **Names that lead away.** `strayDocument`, `exists_accepted_outside`.
-/

namespace Scaffold.Generation

open Disk (LinkFree Path Upless directoriesOf isAbsolute partsOf stays)
open Schema (Entity Options)

/-! ## Names -/

/-- A name that begins at no root, and leads out of no directory that lies `depth` below the
    results. -/
structure Harmless (depth : Nat) (name : String) : Prop where
  relative : isAbsolute name = false
  stays : stays depth (directoriesOf name) = true

/-- A name without slashes leads nowhere. -/
theorem harmless_slashless {name : String} (h : '/' ∉ name.toList) (depth : Nat) :
    Harmless depth name where
  relative := by
    unfold isAbsolute
    rw [decide_eq_false_iff_not]
    exact fun hhead => h (List.mem_of_mem_head? hhead)
  stays := by
    rw [Disk.directoriesOf_slashless h]
    rfl

/-- How far below the results the files of entities lie. -/
def depthOf (flat : Bool) : Nat := if flat then 0 else 1

variable {j : Job}

/-- What the file of a kind is called leads no further than the name that it is called after. -/
theorem stays_name (hext : j.Extended) {a : Artifact} {depth : Nat} {stem : String}
    (h : Harmless depth stem) : isAbsolute (stem ++ j.ending a) = false ∧
      stays depth (partsOf (stem ++ j.ending a)) = true := by
  constructor
  · have hrelative := h.relative
    unfold isAbsolute at hrelative ⊢
    rw [decide_eq_false_iff_not] at hrelative ⊢
    rw [String.toList_append]
    cases hstem : stem.toList with
    | nil =>
        -- the end of a name begins with a point
        have hhead : (j.ending a).toList.head? = some '.' := by simp [Job.ending]
        rw [List.nil_append, hhead]
        exact (by decide : some '.' ≠ some '/')
    | cons c cs =>
        rw [hstem] at hrelative
        exact hrelative
  · obtain ⟨last, hparts⟩ := Disk.exists_partsOf_append (slash_not_mem_ending hext a)
      (Nat.lt_of_succ_lt (length_ending a)) stem
    have hlast : last ++ j.ending a ≠ ".." := by
      intro hup
      have hlength := congrArg (fun s => s.toList.length) hup
      simp only [String.toList_append, List.length_append] at hlength
      have hlong := length_ending (j := j) a
      have htwo : "..".toList.length = 2 := rfl
      omega
    rw [hparts]
    exact Disk.stays_concat h.stays hlast

/-! ## Places -/

/-- What the files of the entities are called after leads out of no directory. -/
def Job.Harmless (j : Job) : Prop :=
  ∀ e ∈ j.entities, Generation.Harmless (depthOf j.layout.flat) (j.policy.fileStem e.fileName)

/-- **Every file of a run has a way from the root that stays below it.** -/
theorem exists_staying_way (hext : j.Extended) (hnames : j.Harmless)
    (hm : '/' ∉ j.module.toList) : ∀ x ∈ j.sequence, ∃ way,
      x.place = j.layout.root ++ way ∧ stays 0 way = true := by
  have hkind : ∀ a name, isAbsolute name = false →
      stays (Layout.below j.layout.flat a).length (partsOf name) = true →
      ∃ way, (j.layout.directory a).join name = j.layout.root ++ way ∧ stays 0 way = true := by
    intro a name hrelative hstays
    refine ⟨Layout.below j.layout.flat a ++ partsOf name, ?_, ?_⟩
    · unfold Path.join
      rw [hrelative, Layout.directory_eq, ← List.append_assoc]
      rfl
    · rw [Disk.stays_names fun s hs => (Layout.isPart_below _ _ s hs).2]
      exact hstays
  -- a part of a path that is no double point leads down
  have hpart : ∀ a name, Disk.IsPart name ∧ name ≠ ".." →
      ∃ way, (j.layout.directory a).join name = j.layout.root ++ way ∧ stays 0 way = true := by
    intro a name h
    refine hkind a name h.1.relative ?_
    rw [Disk.partsOf_part h.1]
    exact Disk.stays_concat (p := []) rfl h.2
  intro x hx
  rcases Job.mem_sequence_cases hx with ⟨a, ha, e, he, rfl⟩ | rfl | rfl | rfl
  · have hdepth : (Layout.below j.layout.flat a).length = depthOf j.layout.flat := by
      rcases Layout.cases_entityKind ha with rfl | rfl | rfl | rfl <;> cases j.layout.flat <;> rfl
    have hfile : (j.entityDraft a e).name = j.policy.fileStem e.fileName ++ j.ending a :=
      fileName_eq ha e.fileName
    have hname := stays_name hext (a := a) (hnames e he)
    refine hkind a _ ?_ ?_
    · rw [hfile]
      exact hname.1
    · rw [hfile, hdepth]
      exact hname.2
  · exact hpart .index _ (isPart_index hext)
  · have hfile : (j.jointDraft .module).name = j.module ++ j.ending .module :=
      fileName_module j.module
    refine hpart .module _ ?_
    rw [hfile]
    exact isPart_append_ending hext .module hm
  · rw [place_project]
    exact ⟨_, rfl, by decide⟩

/-! ## The theorem -/

/-- **Files that were written lie below a root**: so their paths say, without double points, and so it is
    on the disk, if no link lies on the way to the root or below it. -/
structure Contained (root : Path) (before after : Disk) (files : List (Path × String)) : Prop where
  places : ∀ x ∈ files, root <+: Path.normal x.1
  disk : LinkFree before root → ∀ p bytes, after.find? p = some (.file bytes) →
    before.find? p ≠ some (.file bytes) → root <+: p

/-- A run over harmless names is contained. -/
theorem contained_run (hext : j.Extended) (hnames : j.Harmless) (hm : '/' ∉ j.module.toList)
    (hup : Upless j.layout.root) (f : Formatter) (d : Disk) :
    Contained j.layout.root d (j.run f d).disk (j.filesWritten f d) := by
  have hways : ∀ x ∈ j.filesWritten f d, ∃ way, x.1 = j.layout.root ++ way ∧ stays 0 way = true := by
    intro x hx
    obtain ⟨y, hy, hwritten⟩ := Job.exists_of_mem_filesWritten hx
    rw [place_of_written hwritten]
    exact exists_staying_way hext hnames hm y hy
  constructor
  · intro x hx
    obtain ⟨way, hway, hstays⟩ := hways x hx
    rw [hway, Disk.normal_stays hup hstays]
    exact List.prefix_append _ _
  · intro hfree p bytes hafter hbefore
    have hadded := (j.prepared_ready d).added
    by_contra hp
    -- elsewhere there are only new directories
    rw [Disk.find?_writeAll_stays (hfree.of_grown hadded.grown) hup hways
      (j.writeAll_filesWritten f d) hp] at hafter
    rcases hadded p with hsame | ⟨-, hdirectory⟩
    · exact hbefore (hsame ▸ hafter)
    · exact nomatch hafter.symm.trans hdirectory

/-- **Every file lies below the results**, whatever the names of entities and tables are: names of files
    are converted, or lead nowhere. -/
theorem generate_contained {w : Workspace} {es : List Entity} {platform : String} {v : Value}
    {o : Options} (ho : Options.read platform v = .valid o) (hhere : Disk.Slashless w.here)
    (hup : Upless w.here) {root : Path} (hroot : w.disk.resolve w.here o.resultsPath = .ok root)
    (hnames : o.fileCase = .verbatim → ∀ e ∈ es, Harmless (depthOf o.flat) e.fileName)
    (formatter : Option Formatter) :
    Contained root w.disk (generate w formatter es o.settings).disk
      (writtenFiles w formatter es o.settings) := by
  have hlegal := Schema.legal_of_read ho
  unfold generate writtenFiles
  rw [prepare_settings hlegal, hroot]
  by_cases hne : root = []
  · simp only [if_pos hne]
    exact ⟨fun _ h => absurd h List.not_mem_nil, fun _ _ _ hafter hbefore => absurd hafter hbefore⟩
  · simp only [if_neg hne]
    have hharmless : (jobOf w es o hlegal root).Harmless := by
      intro e he
      show Harmless (depthOf o.flat) (o.fileCase.convert e.fileName)
      by_cases hverbatim : o.fileCase = .verbatim
      · rw [hverbatim, Naming.CaseStyle.convert]
        simpa [Naming.CaseStyle.convertChars] using hnames hverbatim e he
      · exact harmless_slashless (slash_not_mem_convert fun h => absurd h hverbatim) _
    exact contained_run (extended_jobOf hlegal) hharmless
      (slash_not_mem_module hlegal hhere hroot hne) (Disk.upless_resolve hup hroot) _ _

/-- Options that leave the names of files as they are, as a document gives them. -/
def verbatimEntries : Entries :=
  [(.text "resultsPath", .text "./output/app"), (.text "convertCaseFile", .text "none")]

/-- These options. -/
def verbatimOptions : Options :=
  { Options.standard "\n" with resultsPath := "./output/app", fileCase := .verbatim }

theorem read_verbatimEntries : Options.read "\n" (.map verbatimEntries) = .valid verbatimOptions := rfl

/-- A user whose files are called after a name. -/
def userCalled (fileName : String) : Entity := { bareEntity "user" with fileName }

/-- A name may lead out of the directory of its kind, as long as it stays below the results. -/
theorem contained_neighbour :
    Contained ["output", "app"] ⟨[]⟩
      (generate (.ofDisk ⟨[]⟩) (some Formatter.keep) [userCalled "../shared/user"]
        verbatimOptions.settings).disk
      (writtenFiles (.ofDisk ⟨[]⟩) (some Formatter.keep) [userCalled "../shared/user"]
        verbatimOptions.settings) := by
  have hroot : (⟨[]⟩ : Disk).resolve [] verbatimOptions.resultsPath = .ok ["output", "app"] := rfl
  have hnames : verbatimOptions.fileCase = .verbatim →
      ∀ e ∈ [userCalled "../shared/user"], Harmless (depthOf verbatimOptions.flat) e.fileName := by
    intro _ e he
    rw [List.mem_singleton.mp he]
    exact ⟨by decide, by decide⟩
  exact generate_contained (w := (.ofDisk ⟨[]⟩)) read_verbatimEntries Disk.slashless_nil
    Disk.upless_nil hroot hnames (some Formatter.keep)

/-! ## Names that lead away -/

/-- The document with a user whose files are called after a way out of the results. -/
def strayDocument : Entries :=
  [(.text "entities", .list [.map [(.text "tscName", .text "user"),
      (.text "fileName", .text "../../evil")]]), (.text "config", .map verbatimEntries)]

theorem readDocument_strayDocument : (Schema.readDocument "\n" strayDocument).result =
    .ok ([userCalled "../../evil"], verbatimOptions) := by
  have hnames : Schema.repeated ([userCalled "../../evil"].map Entity.name) = [] := by decide +kernel
  exact Schema.readDocument_of_combine hnames read_verbatimEntries rfl

/-- **A name of an accepted document can lead out of the results.** A run over it succeeds, and writes
    its files elsewhere although there is no link on the disk. -/
theorem exists_accepted_outside : ∃ (w : Workspace) (doc : Entries) (es : List Entity) (o : Options)
    (root : Path) (formatter : Option Formatter) (report : Report),
    (Schema.readDocument w.platform doc).result = .ok (es, o) ∧
      w.disk.resolve w.here o.resultsPath = .ok root ∧ LinkFree w.disk root ∧
      (generate w formatter es o.settings).result = .ok report ∧
      ∃ x ∈ writtenFiles w formatter es o.settings, ¬ root <+: Path.normal x.1 := by
  have hrun : (generate (.ofDisk ⟨[]⟩) (some Formatter.keep) [userCalled "../../evil"]
      verbatimOptions.settings).result.toOption.isSome = true := by
    decide +kernel
  have hstray : (writtenFiles (.ofDisk ⟨[]⟩) (some Formatter.keep) [userCalled "../../evil"]
      verbatimOptions.settings).any (fun x => decide (¬ ["output", "app"] <+: Path.normal x.1)) =
        true := by
    decide +kernel
  obtain ⟨report, hreport⟩ := Results.exists_eq_ok hrun
  obtain ⟨x, hx, hout⟩ := List.any_eq_true.mp hstray
  exact ⟨.ofDisk ⟨[]⟩, strayDocument, _, _, _, some Formatter.keep, report,
    readDocument_strayDocument, rfl, Disk.linkFree_nil _, hreport, x, hx, of_decide_eq_true hout⟩

end Scaffold.Generation
