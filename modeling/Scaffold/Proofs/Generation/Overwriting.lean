import Scaffold.Proofs.Disk.Resolving
import Scaffold.Proofs.Generation.Places
import Scaffold.Proofs.Generation.Writes

/-!
# `Scaffold.Proofs.Generation.Overwriting` — which files of a run are left

A run reports as many files as it wrote, but two of them may be one. That happens exactly if the
files of two entities are called the same once their names are converted (`generate_filesLeft`);
different names of entities do not prevent it (`exists_accepted_not_nodup`).

## Contents
- **Records.** `nodup_relative_iff`.
- **Files left.** `FilesLeft`, `filesLeft_of_run`, `generate_filesLeft`.
- **Clashes.** `twinDocument`, `exists_accepted_not_nodup`.
-/

namespace Scaffold.Generation

open Disk (IsPart Path)
open Schema (Entity Options)

/-! ## Records -/

/-- Records tell files apart as well as their places do. -/
theorem nodup_relative_iff {root : Path} {files : List (Path × String)} {records : List FileRecord}
    (h : files.map (recorded root) = records.map .ok)
    (hparts : ∀ x ∈ files, ∀ way, x.1 = root ++ way → ∀ s ∈ way, IsPart s) :
    (records.map FileRecord.relative).Nodup ↔ (files.map Prod.fst).Nodup := by
  -- the relative path is a function of the place, and the place is read back from it
  have hrelative : records.map FileRecord.relative =
      (files.map Prod.fst).map fun p => Disk.shownPath (Path.joined (p.drop root.length)) := by
    have hall := Results.mapM_eq_ok.mp (Results.map_eq_map_ok_iff.mp h)
    clear h hparts
    induction hall with
    | nil => rfl
    | cons hx _ ih =>
        obtain ⟨way, hway, -, hshown⟩ := exists_way_of_recorded hx
        rw [List.map_cons, List.map_cons, List.map_cons, ih, hshown, hway, List.drop_left]
  have hbelow : ∀ x ∈ files, ∃ way, x.1 = root ++ way := by
    intro x hx
    obtain ⟨way, hway⟩ := prefix_of_recorded h x hx
    exact ⟨way, hway.symm⟩
  rw [hrelative]
  constructor
  · exact List.Nodup.of_map _
  · refine List.Nodup.map_on fun p hp q hq hpq => ?_
    obtain ⟨x, hx, rfl⟩ := List.mem_map.mp hp
    obtain ⟨y, hy, rfl⟩ := List.mem_map.mp hq
    obtain ⟨u, hu⟩ := hbelow x hx
    obtain ⟨v, hv⟩ := hbelow y hy
    rw [hu, hv, List.drop_left, List.drop_left] at hpq
    have hway := congrArg Disk.partsOf hpq
    rw [Disk.partsOf_shownPath (hparts x hx u hu), Disk.partsOf_shownPath (hparts y hy v hv)] at hway
    rw [hu, hv, hway]

/-! ## Files left -/

/-- **What a run that succeeded has left of its files.** -/
structure FilesLeft (j : Job) (d : Disk) (files : List (Path × String)) (report : Report)
    (d' : Disk) : Prop where
  /-- Four files for an entity, the module, and what the options ask for. -/
  count : report.files.length = 4 * j.entities.length + 1 + (if j.indexFile then 1 else 0) +
    (if j.layout.flat then 0 else 1)
  /-- The report lists the files in order. -/
  listed : files.map (recorded j.layout.root) = report.files.map .ok
  /-- Only files of one kind can be the same. -/
  distinct : (report.files.map FileRecord.relative).Nodup ↔
    ∀ a ∈ Layout.entityKinds, (j.entities.map fun e => (j.entityDraft a e).place).Nodup
  /-- Without slashes they are if the entities' files are called the same. -/
  stems : j.Slashless → ((report.files.map FileRecord.relative).Nodup ↔
    (j.entities.map fun e => j.policy.fileStem e.fileName).Nodup)
  /-- A file is there with its text unless a later one went to the same place. -/
  present : Disk.IsTree d → ∀ before x after, files = before ++ x :: after →
    (∀ y ∈ after, d'.locate true y.1 ≠ d'.locate true x.1) →
      ∀ shown, d'.read x.1 shown = .ok (Text.Utf8.encode x.2)
  /-- Where no link is in the way and the entities' files are called differently, all are there. -/
  kept : Disk.IsTree d → Disk.LinkFree d j.layout.root → j.Slashless →
    (j.entities.map fun e => j.policy.fileStem e.fileName).Nodup →
      ∀ x ∈ files, ∀ shown, d'.read x.1 shown = .ok (Text.Utf8.encode x.2)

theorem length_sequence (j : Job) : j.sequence.length =
    4 * j.entities.length + 1 + (if j.indexFile then 1 else 0) +
      (if j.layout.flat then 0 else 1) := by
  unfold Job.sequence
  cases j.indexFile <;> cases j.layout.flat <;>
    simp only [List.length_append, List.length_map, List.length_cons, List.length_nil,
      Bool.false_eq_true, if_true, if_false] <;> omega

theorem filesLeft_of_run {j : Job} (hext : j.Extended) (hm : '/' ∉ j.module.toList)
    (hup : Disk.Upless j.layout.root) {f : Formatter} {d : Disk} {report : Report}
    (h : (j.run f d).result = .ok report) :
    ∃ files, j.sequence.mapM (Draft.written f) = .ok files ∧
      FilesLeft j d files report (j.run f d).disk := by
  obtain ⟨made, -, hwrites⟩ := writes_of_run_eq_ok h
  obtain ⟨files, hfiles, hall, hrecords⟩ := hwrites.complete
  have hplaces := map_place_of_written hfiles
  have hprepared := j.prepared_ready d
  have hdistinct : (report.files.map FileRecord.relative).Nodup ↔
      ∀ a ∈ Layout.entityKinds, (j.entities.map fun e => (j.entityDraft a e).place).Nodup := by
    rw [nodup_relative_iff hrecords, hplaces, nodup_places_iff hext]
    intro x hx way hway
    obtain ⟨y, hy, hwritten⟩ := Results.exists_of_mem_mapM hfiles x hx
    exact isPart_of_place hy (place_of_written hwritten ▸ hway)
  have hstems : j.Slashless → ((report.files.map FileRecord.relative).Nodup ↔
      (j.entities.map fun e => j.policy.fileStem e.fileName).Nodup) := by
    intro hs
    rw [hdistinct]
    constructor
    · intro hall
      exact (nodup_places_iff_stems hext hs (by decide)).mp (hall .model (by decide))
    · intro hnodup a ha
      exact (nodup_places_iff_stems hext hs ha).mpr hnodup
  refine ⟨files, hfiles, ?_, hrecords, hdistinct, hstems, ?_, ?_⟩
  · have hlength := congrArg List.length hrecords
    have hlength' := congrArg List.length hplaces
    rw [List.length_map, List.length_map] at hlength hlength'
    rw [← hlength, hlength', length_sequence]
  · rintro ht before ⟨p, text⟩ after rfl hlater shown
    exact Disk.read_writeAll (hprepared.tree ht) hall hlater shown
  · intro ht hlinks hs hnodup x hx shown
    have hbelow : ∀ y ∈ files, j.layout.root <+: y.1 ∧ ∀ s ∈ y.1, s ≠ ".." := by
      intro y hy
      obtain ⟨z, hz, hwritten⟩ := Results.exists_of_mem_mapM hfiles y hy
      rw [place_of_written hwritten]
      exact upless_place hext hs hm hup hz
    have hpaths : (files.map Prod.fst).Nodup := by
      rw [hplaces, nodup_places_iff hext]
      exact fun a ha => (nodup_places_iff_stems hext hs ha).mpr hnodup
    exact Disk.read_of_linkFree (hprepared.tree ht) hall (hlinks.of_grown hprepared.added.grown)
      hbelow hpaths shown x hx

/-- **Files of a successful run are overwritten exactly if entities share a converted file name.** -/
theorem generate_filesLeft {w : Workspace} {es : List Entity} {platform : String} {v : Value}
    {o : Options} (ho : Options.read platform v = .valid o) (hhere : Disk.Slashless w.here)
    (hup : Disk.Upless w.here) {formatter : Option Formatter} {report : Report}
    (h : (generate w formatter es o.settings).result = .ok report) :
    ∃ job files, prepare w es o.settings = .ok job ∧
      job.sequence.mapM (Draft.written (formatter.getD (ownFormatter w o.settings))) = .ok files ∧
      FilesLeft job w.disk files report (generate w formatter es o.settings).disk := by
  have hlegal := Schema.legal_of_read ho
  obtain ⟨job, hjob, hrun⟩ := exists_job_of_generate h
  obtain ⟨root, hroot, hne, rfl⟩ := prepare_eq_ok hlegal hjob
  rw [hrun] at h ⊢
  obtain ⟨files, hfiles, hleft⟩ := filesLeft_of_run (extended_jobOf hlegal)
    (slash_not_mem_module hlegal hhere hroot hne) (Disk.upless_resolve hup hroot) h
  exact ⟨_, files, hjob, hfiles, hleft⟩

/-- The run over one entity on an empty disk. -/
theorem filesLeft_bareEntity : ∃ report,
    (generate (.ofDisk ⟨[]⟩) (some Formatter.keep) [bareEntity "user"]
      (Options.standard "\n").settings).result = .ok report ∧
    ∃ job files, prepare (.ofDisk ⟨[]⟩) [bareEntity "user"] (Options.standard "\n").settings = .ok job ∧
      job.sequence.mapM (Draft.written Formatter.keep) = .ok files ∧
      FilesLeft job ⟨[]⟩ files report (generate (.ofDisk ⟨[]⟩) (some Formatter.keep)
        [bareEntity "user"] (Options.standard "\n").settings).disk := by
  obtain ⟨report, hreport⟩ := exists_report_bareEntity
  exact ⟨report, hreport, generate_filesLeft (Schema.read_nil "\n") Disk.slashless_nil
    Disk.upless_nil hreport⟩

/-! ## Clashes -/

/-- The document with two entities whose names differ only in style. -/
def twinDocument : Entries :=
  [(.text "entities", .list [.map [(.text "tscName", .text "user_profile")],
    .map [(.text "tscName", .text "UserProfile")]])]

theorem readDocument_twinDocument : (Schema.readDocument "\n" twinDocument).result =
    .ok ([bareEntity "user_profile", bareEntity "UserProfile"], Options.standard "\n") := by
  have hnames : Schema.repeated
      ([bareEntity "user_profile", bareEntity "UserProfile"].map Entity.name) = [] := by
    decide +kernel
  exact Schema.readDocument_of_combine hnames (Schema.read_nil "\n") rfl

/-- **Entities of an accepted document can share their files.** A run over two names that one style
    converts to the same succeeds, and lists the same file twice. -/
theorem exists_accepted_not_nodup : ∃ (w : Workspace) (doc : Entries) (es : List Entity)
    (o : Options) (formatter : Option Formatter) (report : Report),
    (Schema.readDocument w.platform doc).result = .ok (es, o) ∧
      (generate w formatter es o.settings).result = .ok report ∧
      ¬ (report.files.map FileRecord.relative).Nodup := by
  have hrun : (generate (.ofDisk ⟨[]⟩) (some Formatter.keep)
      [bareEntity "user_profile", bareEntity "UserProfile"]
      (Options.standard "\n").settings).result.toOption.map (fun r =>
        decide (r.files.map FileRecord.relative).Nodup) = some false := by
    decide +kernel
  obtain ⟨report, hreport, hclash⟩ := Option.map_eq_some_iff.mp hrun
  exact ⟨.ofDisk ⟨[]⟩, twinDocument, _, _, some Formatter.keep, report,
    readDocument_twinDocument, Results.eq_ok_of_toOption hreport, of_decide_eq_false hclash⟩

end Scaffold.Generation
