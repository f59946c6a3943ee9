import Scaffold.Proofs.Disk.Convergence
import Scaffold.Proofs.Generation.Independence

/-!
# `Scaffold.Proofs.Generation.Repetition` — running again

A run writes every file whole and looks at none, so that what comes of it does not depend on the files
that were there: on every disk with the same directories and links it goes through in the same way
(`run_sameFrame`). On the disk that it left itself it makes no directory and changes nothing; files that
it does not list stay as they were; and whatever stood where its files go, the disk that it leaves is
the same (`generate_repeatable`).

## Contents
- **Drafts.** `emit_sameFrame`, `follow_sameFrame`.
- **Runs.** `remade`, `run_sameFrame`, `grown_run`, `find?_run_sameFrame`.
- **Listed places.** `Listed`, `exists_file_of_listed`, `added_of_not_listed`, `listed_iff_mem`,
  `converging_of_run`.
- **Running again.** `run_again`, `run_regardless`, `not_directory_of_run`.
- **Preparing.** `prepare_of_resolve`.
- **The theorem.** `Repeatable`, `generate_repeatable`, `usedDisk`, `repeatable_bareEntity`.
-/

namespace Scaffold.Generation

open Disk (Path)
open Schema (Entity Options Settings)

/-! ## Drafts -/

variable {f : Formatter} {root : Path} {d d' : Disk}

/-- Drafts that are all written are written in the same way on every disk with the same frame. -/
theorem emit_sameFrame (hs : Disk.SameFrame d d') {xs : List Draft}
    (h : (emit f root d xs).stop = none) :
    ∃ d₂, emit f root d' xs = { emit f root d xs with disk := d₂ } ∧
      Disk.SameFrame (emit f root d xs).disk d₂ := by
  induction xs generalizing d d' with
  | nil => exact ⟨d', rfl, hs⟩
  | cons x xs ih =>
      unfold emit at h ⊢
      cases htext : x.text with
      | error fault =>
          rw [htext] at h
          cases h
      | ok text =>
          rw [htext] at h
          simp only [writeBelow] at h ⊢
          cases hwrite : d.write (x.directory.join x.name) (f.apply text x.source x.parser).1 with
          | error failure =>
              rw [hwrite] at h
              cases h
          | ok d₁ =>
              obtain ⟨d₁', hwrite', hs₁⟩ := Disk.write_sameFrame hs hwrite
              rw [hwrite] at h
              rw [hwrite']
              simp only at h ⊢
              cases hrecord : recordOf root (x.directory.join x.name)
                  (f.apply text x.source x.parser).1 with
              | error fault =>
                  rw [hrecord] at h
                  cases h
              | ok record =>
                  rw [hrecord] at h
                  obtain ⟨d₂, hrest, hs₂⟩ := ih hs₁ h
                  simp only [hrest]
                  exact ⟨d₂, rfl, hs₂⟩

/-- Steps that are all taken are taken in the same way on every disk with the same frame. -/
theorem follow_sameFrame (hs : Disk.SameFrame d d') {reached : Phase} {steps : List Step}
    (h : (follow f root d reached steps).stop = none) :
    ∃ d₂, follow f root d' reached steps = { follow f root d reached steps with disk := d₂ } := by
  induction steps generalizing d d' reached with
  | nil => exact ⟨d', rfl⟩
  | cons s steps ih =>
      unfold follow at h ⊢
      simp only at h ⊢
      cases hstop : (emit f root d s.drafts).stop with
      | some stop =>
          rw [hstop] at h
          exact nomatch h
      | none =>
          obtain ⟨d₁', hemit, hs₁⟩ := emit_sameFrame hs hstop
          rw [hstop] at h
          simp only [hemit, hstop] at h ⊢
          obtain ⟨d₂, hrest⟩ := ih hs₁ h
          rw [hrest]
          exact ⟨d₂, rfl⟩

/-! ## Runs -/

/-- A report, but about other directories that were made. -/
def remade (made : List Path) (r : Report) : Report :=
  { r with steps := directoryReport made :: r.steps.tail }

section Runs

variable {j : Job} {report : Report}

/-- **A run that succeeds goes in the same way on every disk with the same frame**, once the directories
    are there. Only what is said about the directories may differ. -/
theorem run_sameFrame (h : (j.run f d).result = .ok report) {made : List Path}
    (hmade : (j.ready d').2 = .ok made) (hs : Disk.SameFrame (j.ready d).1 (j.ready d').1) :
    ∃ d₂, j.run f d' =
      ⟨d₂, j.layout.readyNote made :: (j.run f d).log.tail, .ok (remade made report)⟩ := by
  obtain ⟨before, hbefore, rfl, hstop⟩ := exists_course_of_run h
  obtain ⟨d₂, hcourse⟩ := follow_sameFrame hs hstop
  have hsame : j.course f d' = { j.course f d with disk := d₂ } := hcourse
  have hstop' : (j.course f d').stop = none := by
    rw [hsame]
    exact hstop
  refine ⟨d₂, ?_⟩
  rw [Job.run_of_course hmade hstop', Job.run_of_course hbefore hstop, hsame]
  rfl

/-- A disk grows by a run. -/
theorem grown_run (ht : Disk.IsTree d) : Disk.Grown d (j.run f d).disk := by
  have hprepared := j.prepared_ready d
  exact hprepared.added.grown.trans
    (Disk.grown_writeAll (hprepared.tree ht) (j.writeAll_filesWritten f d)).1

/-- Files go where their paths lead after the run. -/
theorem locate_ready_iff (ht : Disk.IsTree d) {p q : Path} :
    (j.run f d).disk.locate true p = .ok q ↔ (j.ready d).1.locate true p = .ok q := by
  have htree := (j.prepared_ready d).tree ht
  exact Disk.locate_sameFrame (Disk.sameFrame_writeAll htree (j.writeAll_filesWritten f d))

/-- **What is found after two such runs** is the same, if it was the same where no file goes. -/
theorem find?_run_sameFrame (ht : Disk.IsTree d) (h : (j.run f d).result = .ok report)
    {report' : Report} (h' : (j.run f d').result = .ok report')
    (hs : Disk.SameFrame (j.ready d).1 (j.ready d').1) {q : Path}
    (hbase : (∀ x ∈ j.filesWritten f d, (j.ready d).1.locate true x.1 ≠ .ok q) →
      (j.ready d').1.find? q = (j.ready d).1.find? q) :
    (j.run f d').disk.find? q = (j.run f d).disk.find? q := by
  have htree := (j.prepared_ready d).tree ht
  -- both runs write the same files, since neither looks at the disk for them
  have hfiles : j.filesWritten f d' = j.filesWritten f d :=
    Except.ok.inj ((Job.filesWritten_of_run h').2.1.symm.trans (Job.filesWritten_of_run h).2.1)
  have hall := j.writeAll_filesWritten f d
  have hall' := j.writeAll_filesWritten f d'
  rw [hfiles] at hall'
  exact Disk.find?_writeAll_sameFrame htree hs hall hall' hbase

/-! ## Listed places -/

/-- A file of the report goes to the place. -/
def Listed (d : Disk) (report : Report) (q : Path) : Prop :=
  ∃ r ∈ report.files, d.locate true r.place = .ok q

/-- The report lists the files that were written. -/
theorem listed_iff (h : (j.run f d).result = .ok report) {b : Disk} {q : Path} :
    Listed b report q ↔ ∃ x ∈ j.filesWritten f d, b.locate true x.1 = .ok q := by
  obtain ⟨-, -, hrecords⟩ := Job.filesWritten_of_run h
  constructor
  · rintro ⟨r, hr, hq⟩
    obtain ⟨x, hx, hxr⟩ := exists_file_of_mem hrecords hr
    exact ⟨x, hx, hxr ▸ hq⟩
  · rintro ⟨x, hx, hq⟩
    obtain ⟨r, hr, hrx⟩ := exists_record_of_mem hrecords hx
    exact ⟨r, hr, hrx ▸ hq⟩

section Tree

variable (ht : Disk.IsTree d) (h : (j.run f d).result = .ok report)
include ht h

/-- At a listed place there is a file after the run. -/
theorem exists_file_of_listed {q : Path} (hq : Listed (j.run f d).disk report q) :
    ∃ bytes, (j.run f d).disk.find? q = some (.file bytes) := by
  have htree := (j.prepared_ready d).tree ht
  obtain ⟨x, hx, hxq⟩ := (listed_iff h).mp hq
  exact Disk.exists_file_writeAll htree (j.writeAll_filesWritten f d) x hx q hxq

/-- **Elsewhere everything is as before**, but for the directories that were made. -/
theorem added_of_not_listed {q : Path} (hq : ¬ Listed (j.run f d).disk report q) :
    (j.run f d).disk.find? q = d.find? q ∨
      d.find? q = none ∧ (j.run f d).disk.find? q = some .directory := by
  have hprepared := j.prepared_ready d
  have hsame : (j.run f d).disk.find? q = (j.ready d).1.find? q := by
    refine Disk.find?_of_unwritten (hprepared.tree ht) (j.writeAll_filesWritten f d) fun x hx hxq => ?_
    exact hq ((listed_iff h).mpr ⟨x, hx, (locate_ready_iff ht).mpr hxq⟩)
  rw [hsame]
  exact hprepared.added q

/-- Files stand where they stood. -/
theorem file_iff_of_not_listed {q : Path} (hq : ¬ Listed (j.run f d).disk report q)
    (bytes : List UInt8) :
    (j.run f d).disk.find? q = some (.file bytes) ↔ d.find? q = some (.file bytes) := by
  rcases added_of_not_listed ht h hq with hsame | ⟨hnone, hdir⟩
  · rw [hsame]
  · rw [hnone, hdir]
    exact ⟨nofun, nofun⟩

/-- **Where no link is in the way, the listed places are the paths of the report.** -/
theorem listed_iff_mem (hfree : Disk.LinkFree d j.layout.root)
    (hup : ∀ r ∈ report.files, Disk.Upless r.place) {q : Path} :
    Listed (j.run f d).disk report q ↔ q ∈ report.files.map FileRecord.place := by
  have htree := (j.prepared_ready d).tree ht
  have hfree' : Disk.LinkFree (j.run f d).disk j.layout.root := hfree.of_grown (grown_run ht)
  obtain ⟨-, -, hrecords⟩ := Job.filesWritten_of_run h
  -- every file lies below the root, so that its path leads to itself
  have hself : ∀ r ∈ report.files, ∀ p, (j.run f d).disk.locate true r.place = .ok p →
      p = r.place := by
    intro r hr p hp
    obtain ⟨x, hx, hxr⟩ := exists_file_of_mem hrecords hr
    have hbelow : j.layout.root <+: r.place := hxr ▸ prefix_of_recorded hrecords x hx
    exact Disk.locate_linkFree hfree' hbelow (hup r hr) hp
  constructor
  · rintro ⟨r, hr, hq⟩
    rw [hself r hr q hq]
    exact List.mem_map_of_mem hr
  · intro hq
    obtain ⟨r, hr, rfl⟩ := List.mem_map.mp hq
    obtain ⟨x, hx, hxr⟩ := exists_file_of_mem hrecords hr
    obtain ⟨p, hp⟩ := Disk.exists_locate_writeAll htree (j.writeAll_filesWritten f d) x hx
    rw [hxr] at hp
    obtain rfl := hself r hr p hp
    exact ⟨r, hr, hp⟩

/-- A disk that differs at listed places only, from the one that the run began with. -/
theorem converging_of_run
    (helse : ∀ q, ¬ Listed (j.run f d).disk report q → d'.find? q = d.find? q) :
    Disk.Converging (Listed (j.run f d).disk report) d' d d' (j.run f d).disk :=
  ⟨grown_run ht, fun _ hp => exists_file_of_listed ht h hp, helse, fun _ _ => rfl⟩

/-! ## Running again -/

/-- **A run on the disk that it left** makes no directory, and leaves that disk as it is. -/
theorem run_again : ∃ d₂, j.run f (j.run f d).disk =
      ⟨d₂, j.layout.readyNote [] :: (j.run f d).log.tail, .ok (remade [] report)⟩ ∧
    ∀ q, d₂.find? q = (j.run f d).disk.find? q := by
  have htree := (j.prepared_ready d).tree ht
  have hall := j.writeAll_filesWritten f d
  -- the directories are there, and files are all that the disk holds besides
  have hready : j.ready (j.run f d).disk = ((j.run f d).disk, .ok []) :=
    Disk.ensureAll_of_status (status_of_run ht h)
  have hframe : Disk.SameFrame (j.ready d).1 (j.ready (j.run f d).disk).1 := by
    rw [hready]
    exact Disk.sameFrame_writeAll htree hall
  obtain ⟨d₂, hd⟩ := run_sameFrame h (by rw [hready]) hframe
  refine ⟨d₂, hd, fun q => ?_⟩
  have hfind := find?_run_sameFrame ht h (congrArg Outcome.result hd) hframe (q := q) fun hq => by
    rw [hready]
    exact Disk.find?_of_unwritten htree hall hq
  rw [hd] at hfind
  exact hfind

/-- **A run goes in the same way whatever files stand at the listed places**, and leaves the same
    disk. -/
theorem run_regardless
    (helse : ∀ q, ¬ Listed (j.run f d).disk report q → d'.find? q = d.find? q)
    (hlinks : ∀ q t, Listed (j.run f d).disk report q → d'.find? q ≠ some (.link t))
    (hdirs : ∀ q, Listed (j.run f d).disk report q → d'.find? q ≠ some .directory) :
    ∃ d₂, j.run f d' = { j.run f d with disk := d₂ } ∧
      ∀ q, d₂.find? q = (j.run f d).disk.find? q := by
  obtain ⟨hdisks, hmade⟩ := Disk.ensureAll_converging (converging_of_run ht h helse)
    fun p hp => Disk.leads_of_status (status_of_run ht h p hp)
  have hframe := hdisks.sameFrame hlinks hdirs
  obtain ⟨made, hbefore, -, -⟩ := exists_course_of_run h
  obtain ⟨d₂, hrun⟩ := run_sameFrame h (hmade.trans hbefore) hframe
  obtain ⟨d₁, hself⟩ := run_sameFrame h hbefore (.refl _)
  refine ⟨d₂, ?_, fun q => ?_⟩
  · rw [hrun]
    exact (Outcome.mk.injEq ..).mpr
      ⟨rfl, (congrArg Outcome.log hself).symm, (congrArg Outcome.result hself).symm⟩
  · have hfind := find?_run_sameFrame ht h (congrArg Outcome.result hrun) hframe (q := q)
      fun hq => hdisks.same q fun hlisted => by
        obtain ⟨x, hx, hxq⟩ := (listed_iff h).mp hlisted
        exact hq x hx ((locate_ready_iff ht).mp hxq)
    rw [hrun] at hfind
    exact hfind

/-- **No run succeeds where a directory stands at a listed place.** -/
theorem not_directory_of_run (ht' : Disk.IsTree d')
    (helse : ∀ q, ¬ Listed (j.run f d).disk report q → d'.find? q = d.find? q)
    (hlinks : ∀ q t, Listed (j.run f d).disk report q → d'.find? q ≠ some (.link t))
    {report' : Report} (h' : (j.run f d').result = .ok report') :
    ∀ q, Listed (j.run f d).disk report q → d'.find? q ≠ some .directory := by
  intro q hlisted
  obtain ⟨hdisks, -⟩ := Disk.ensureAll_converging (converging_of_run ht h helse)
    fun p hp => Disk.leads_of_status (status_of_run ht h p hp)
  have htree' := (j.prepared_ready d').tree ht'
  have hfiles : j.filesWritten f d' = j.filesWritten f d :=
    Except.ok.inj ((Job.filesWritten_of_run h').2.1.symm.trans (Job.filesWritten_of_run h).2.1)
  obtain ⟨x, hx, hxq⟩ := (listed_iff h).mp hlisted
  -- the file goes to the listed place in this run as well
  obtain ⟨-, r, hr, hdir⟩ := (Disk.exists_writeAll_iff htree').mp ⟨_, j.writeAll_filesWritten f d'⟩ x
    (hfiles ▸ hx)
  have hq := Disk.locate_of_frameKept (hdisks.frameKept hlinks) ((locate_ready_iff ht).mp hxq)
  cases hr.symm.trans hq
  rw [← hdisks.held q hlisted]
  exact hdir

end Tree

end Runs

/-! ## Preparing -/

/-- A job depends on the disk by the place of its results only. -/
theorem prepare_of_resolve {w : Workspace} {es : List Entity} {s : Settings} {j : Job}
    (h : prepare w es s = .ok j)
    (hroot : ∀ text, w.disk.resolve w.here text = .ok j.layout.root →
      d.resolve w.here text = .ok j.layout.root) :
    prepare { w with disk := d } es s = .ok j := by
  unfold prepare at h ⊢
  obtain ⟨policy, hpolicy, h⟩ := Results.bind_eq_ok.mp h
  obtain ⟨results, hresults, h⟩ := Results.bind_eq_ok.mp h
  obtain ⟨layout, hlayout, h⟩ := Results.bind_eq_ok.mp h
  refine Results.bind_eq_ok.mpr ⟨policy, hpolicy, ?_⟩
  refine Results.bind_eq_ok.mpr ⟨results, hresults, ?_⟩
  have hlay : j.layout = layout := by
    split at h
    · exact nomatch h
    · cases h
      rfl
  refine Results.bind_eq_ok.mpr ⟨layout, ?_, h⟩
  obtain ⟨root, hplace, rfl⟩ := Results.map_eq_ok.mp (Results.mapError_eq_ok.mp hlayout)
  rw [hlay] at hroot
  exact Results.mapError_eq_ok.mpr (Results.map_eq_ok.mpr ⟨root, hroot results hplace, rfl⟩)

/-! ## The theorem -/

/-- **A run that succeeded can be repeated.** -/
structure Repeatable (w : Workspace) (formatter : Option Formatter) (es : List Entity) (s : Settings)
    (j : Job) (report : Report) (after : Disk) : Prop where
  /-- Running again on the disk that is left succeeds, makes no directory, and changes nothing. -/
  again : ∃ d, generate { w with disk := after } formatter es s =
      ⟨d, j.layout.readyNote [] :: (generate w formatter es s).log.tail,
        .ok { report with
          steps := ⟨"Ensure Directories", true, .zero false, "0 created"⟩ :: report.steps.tail }⟩ ∧
    ∀ q, d.find? q = after.find? q
  /-- Where no path of the report leads everything is as before, but for directories made. -/
  framed : ∀ q, ¬ Listed after report q → after.find? q = w.disk.find? q ∨
    w.disk.find? q = none ∧ after.find? q = some .directory
  /-- Where no link is in the way, paths of the report lead where they say. -/
  named : Disk.LinkFree w.disk j.layout.root → (∀ r ∈ report.files, Disk.Upless r.place) →
    ∀ q, Listed after report q ↔ q ∈ report.files.map FileRecord.place
  /-- There, every file that the report does not list has the bytes that it had before. -/
  untouched : Disk.LinkFree w.disk j.layout.root → (∀ r ∈ report.files, Disk.Upless r.place) →
    ∀ p, p ∉ report.files.map FileRecord.place → ∀ bytes,
      after.find? p = some (.file bytes) ↔ w.disk.find? p = some (.file bytes)
  /-- At listed places there are files. -/
  written : ∀ q, Listed after report q → ∃ bytes, after.find? q = some (.file bytes)
  /-- Whatever but links stood there before, the run goes in the same way and leaves the same disk,
      unless there was a directory; then it cannot succeed. -/
  regardless : ∀ d', Disk.IsTree d' → (∀ q, ¬ Listed after report q → d'.find? q = w.disk.find? q) →
    (∀ q t, Listed after report q → d'.find? q ≠ some (.link t)) →
    ((∃ report', (generate { w with disk := d' } formatter es s).result = .ok report') ↔
      ∀ q, Listed after report q → d'.find? q ≠ some .directory) ∧
    ∀ report', (generate { w with disk := d' } formatter es s).result = .ok report' →
      ∃ d, generate { w with disk := d' } formatter es s =
          { generate w formatter es s with disk := d } ∧ ∀ q, d.find? q = after.find? q

/-- A text that was resolved names a place that can be told. -/
theorem status_of_resolve {here p : Path} {text : String} (h : d.resolve here text = .ok p) :
    d.status p ≠ .error .tooManyLinks := by
  unfold Disk.resolve at h
  split at h
  · exact nomatch h
  · simp only at h
    split at h
    · exact nomatch h
    · rename_i hstatus
      cases h
      exact hstatus

/-- **Running again is idempotent, and leaves everything else alone.** The entities, the settings, the
    formatter and the disk are any at all, as long as the disk is a tree. -/
theorem generate_repeatable {w : Workspace} {formatter : Option Formatter} {es : List Entity}
    {s : Settings} {report : Report} (ht : Disk.IsTree w.disk)
    (h : (generate w formatter es s).result = .ok report) :
    ∃ j, prepare w es s = .ok j ∧
      Repeatable w formatter es s j report (generate w formatter es s).disk := by
  obtain ⟨j, hj, hrun⟩ := exists_job_of_generate h
  rw [hrun] at h ⊢
  have hthere := status_of_run ht h
  refine ⟨j, hj, ?_, fun q => added_of_not_listed ht h, fun hfree hup q =>
    listed_iff_mem ht h hfree hup, fun hfree hup p hp => ?_, fun q => exists_file_of_listed ht h, ?_⟩
  · have hplace := prepare_of_resolve hj fun text htext =>
      Disk.resolve_of_grown (grown_run ht) htext
        (by rw [hthere j.layout.root List.mem_cons_self]; exact nofun)
    rw [generate_of_prepare hplace, hrun]
    exact run_again ht h
  · exact file_iff_of_not_listed ht h (mt (listed_iff_mem ht h hfree hup).mp hp)
  · intro d' ht' helse hlinks
    have hconverging := converging_of_run ht h helse
    have hplace := prepare_of_resolve hj fun text htext => by
      have hleads := Disk.leads_of_status (hthere j.layout.root List.mem_cons_self)
      refine Disk.resolve_of_links (hconverging.frameKept hlinks).link htext ?_
      rw [Disk.status_converging hconverging hleads]
      exact status_of_resolve htext
    have hrun' : generate { w with disk := d' } formatter es s =
        j.run (formatter.getD (ownFormatter w s)) d' := generate_of_prepare hplace
    rw [hrun', hrun]
    have hsame := fun hdirs => run_regardless ht h helse hlinks hdirs
    have hdirs : ∀ report', (j.run (formatter.getD (ownFormatter w s)) d').result = .ok report' →
        ∀ q, Listed _ report q → d'.find? q ≠ some .directory := fun _ h' =>
      not_directory_of_run ht h ht' helse hlinks h'
    refine ⟨⟨fun ⟨report', h'⟩ => hdirs report' h', fun hd => ?_⟩,
      fun report' h' => hsame (hdirs report' h')⟩
    obtain ⟨d₂, hd₂, -⟩ := hsame hd
    exact ⟨report, by rw [hd₂]; exact h⟩

/-- A disk with notes among the results, and with an older file where a new one goes. -/
def usedDisk : Disk :=
  (((Disk.put ⟨[]⟩ ["output"] .directory).put ["output", "notes.md"] (.file [0x21])).put
    ["output", "dtos"] .directory).put ["output", "dtos", "User.dto.ts"] (.file [0x3b])

theorem isTree_usedDisk : Disk.IsTree usedDisk :=
  Disk.isTree_put (Disk.isTree_put (Disk.isTree_put (Disk.isTree_put Disk.isTree_nil (by decide) rfl)
    (by decide) rfl) (by decide) rfl) (by decide) rfl

theorem linkFree_usedDisk (root : Path) : Disk.LinkFree usedDisk root :=
  Disk.linkFree_of_entries (by simp [usedDisk, Disk.put])

/-- The run over one entity on this disk leaves the notes alone, and lists the older file. -/
theorem repeatable_bareEntity : Disk.IsTree usedDisk ∧ ∃ report,
    (generate (.ofDisk usedDisk) (some Formatter.keep) [bareEntity "user"]
      (Options.standard "\n").settings).result = .ok report ∧
    (∃ j, prepare (.ofDisk usedDisk) [bareEntity "user"] (Options.standard "\n").settings = .ok j ∧
      Repeatable (.ofDisk usedDisk) (some Formatter.keep) [bareEntity "user"]
        (Options.standard "\n").settings j report
        (generate (.ofDisk usedDisk) (some Formatter.keep) [bareEntity "user"]
          (Options.standard "\n").settings).disk) ∧
    ["output", "dtos", "User.dto.ts"] ∈ report.files.map FileRecord.place ∧
    (generate (.ofDisk usedDisk) (some Formatter.keep) [bareEntity "user"]
      (Options.standard "\n").settings).disk.find? ["output", "notes.md"] = some (.file [0x21]) := by
  have hrun : (generate (.ofDisk usedDisk) (some Formatter.keep) [bareEntity "user"]
      (Options.standard "\n").settings).result.toOption.map (fun r => r.files.map FileRecord.place) =
        some [["output", "models", "User.model.ts"], ["output", "services", "User.service.ts"],
          ["output", "controllers", "User.controller.ts"], ["output", "output.module.ts"],
          ["output", "dtos", "User.dto.ts"], ["output", "tsconfig.json"]] := by
    decide +kernel
  obtain ⟨report, hreport, hplaces⟩ := Option.map_eq_some_iff.mp hrun
  have hresult := Results.eq_ok_of_toOption hreport
  obtain ⟨j, hj, hrepeatable⟩ := generate_repeatable isTree_usedDisk hresult
  refine ⟨isTree_usedDisk, report, hresult, ⟨j, hj, hrepeatable⟩, ?_, ?_⟩
  · rw [hplaces]
    decide
  · have hup : ∀ p ∈ report.files.map FileRecord.place, ∀ s ∈ p, s ≠ ".." := by
      rw [hplaces]
      decide
    refine (hrepeatable.untouched (linkFree_usedDisk _)
      (fun r hr => hup _ (List.mem_map_of_mem hr)) _ ?_ _).mpr rfl
    rw [hplaces]
    decide

end Scaffold.Generation
