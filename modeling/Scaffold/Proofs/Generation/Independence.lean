import Scaffold.Proofs.Disk.Order
import Scaffold.Proofs.Generation.Formatting
import Scaffold.Proofs.Generation.Rendering

/-!
# `Scaffold.Proofs.Generation.Independence` — what the files of an entity depend on

The text of a file that is made for an entity depends on the entity, on the options, and on what the
files of the entities are called after that it refers to: nothing else of the other entities is in it,
nor where they stand (`text_eq_of_alike`). So two runs over the same entities in another order write the
same files but for those of all entities together, and if no two files go to the same place they leave
the same disk but for these (`generate_over`).

Whether two files go to the same place is not told by their names alone: a name that is left as it is
may hold slashes, and a link may lie in the way (`exists_order_matters`).

## Contents
- **Texts.** `Job.Alike`, `text_eq_of_alike`.
- **Orders.** `Job.over`, `succeeds_over`, `Undisturbed`, `undisturbed_over`, `generate_over`.
- **Generating.** `generate_independent`.
- **Clashes.** `exists_order_matters`.
-/

namespace Scaffold.Generation

open Disk (Path)
open Schema (Accepted Entity Options)

/-! ## Texts -/

/-- Jobs that differ only in their entities and in the place of their results. -/
structure Job.Alike (j k : Job) : Prop where
  policy : k.policy = j.policy
  extension : k.extension = j.extension
  eol : k.eol = j.eol
  platform : k.platform = j.platform
  flat : k.layout.flat = j.layout.flat

namespace Job.Alike

variable {j k : Job} (h : j.Alike k)
include h

theorem finished (a : Artifact) (ls : Source.Lines) : k.finished a ls = j.finished a ls := by
  unfold Job.finished Job.finish Job.normalized
  rw [h.eol, h.platform]

theorem importPrefix (a b : Artifact) :
    k.layout.importPrefix a b = j.layout.importPrefix a b := by
  rw [Layout.importPrefix_eq, Layout.importPrefix_eq, h.flat]

/-- The way to what all files share does not depend on the root either. -/
theorem commonWay (a : Artifact) :
    Path.moduleFrom (k.layout.directory a) (k.layout.root ++ [Layout.commonName]) =
      Path.moduleFrom (j.layout.directory a) (j.layout.root ++ [Layout.commonName]) := by
  unfold Path.moduleFrom Path.wayFrom
  rw [Layout.directory_eq, Layout.directory_eq, Disk.split_append, Disk.split_append, h.flat]

end Job.Alike

/-- Imports of related entities depend on what those are called after, and on no other entity. -/
theorem relatedImports_congr {files files' : Source.EntityFiles} {x : Entity}
    (h : ∀ r ∈ x.relations, files'.lookup r.related = files.lookup r.related) (p : Naming.Policy)
    (a : Artifact) (className : String → String) :
    Source.relatedImports p files' a className x = Source.relatedImports p files a className x := by
  refine List.map_congr_left fun n hn => ?_
  obtain ⟨r, hr, rfl⟩ := List.mem_map.mp (mem_relatedNames.mp hn).1.mem
  unfold Source.fileFor
  rw [h r hr]

/-- **The text of a file for an entity** is the same in jobs that are alike, if the entities that it
    refers to have their files called the same. -/
theorem text_eq_of_alike {j k : Job} (h : j.Alike k) {e : Entity}
    (hfiles : ∀ r ∈ e.relations, k.entityFiles.lookup r.related = j.entityFiles.lookup r.related)
    {a : Artifact} (ha : a ∈ Layout.entityKinds) :
    (k.entityDraft a e).text = (j.entityDraft a e).text := by
  rcases Layout.cases_entityKind ha with rfl | rfl | rfl | rfl
  · have hlines : ∀ common, Source.modelLines j.policy common k.entityFiles e.forModel =
        Source.modelLines j.policy common j.entityFiles e.forModel := by
      intro common
      unfold Source.modelLines
      rw [relatedImports_congr (x := e.forModel) hfiles]
    have hfinished : k.finished .model = j.finished .model := funext fun ls => h.finished .model ls
    rw [Job.text_model, Job.text_model, h.policy, h.commonWay, hlines, hfinished]
  · -- a data transfer object sees fewer relations
    have hmany : ∀ r ∈ e.forDto.relations,
        k.entityFiles.lookup r.related = j.entityFiles.lookup r.related :=
      fun r hr => hfiles r (List.mem_filter.mp hr).1
    rw [Job.text_dto, Job.text_dto, h.finished, h.policy]
    unfold Source.dtoLines
    rw [relatedImports_congr hmany]
  · rw [Job.text_service, Job.text_service, h.finished, h.policy, h.importPrefix, h.importPrefix]
  · rw [Job.text_controller, Job.text_controller, h.finished, h.policy, h.importPrefix,
      h.importPrefix]

/-- What a formatter makes of the files of an entity, and their names, are the same as well. -/
theorem printed_eq_of_alike {j k : Job} (h : j.Alike k) {e : Entity}
    (hfiles : ∀ r ∈ e.relations, k.entityFiles.lookup r.related = j.entityFiles.lookup r.related)
    {a : Artifact} (ha : a ∈ Layout.entityKinds) (f : Formatter) :
    ((k.entityDraft a e).written f).map Prod.snd = ((j.entityDraft a e).written f).map Prod.snd := by
  unfold Draft.written
  rw [text_eq_of_alike h hfiles ha]
  cases (j.entityDraft a e).text <;> rfl

/-! ## Orders -/

/-- The same job over other entities. -/
def Job.over (j : Job) (es : List Entity) : Job := { j with entities := es }

namespace Job

variable {j : Job} {es : List Entity}

theorem alike_over (j : Job) (es : List Entity) : j.Alike (j.over es) := ⟨rfl, rfl, rfl, rfl, rfl⟩

theorem lookup_over (hp : j.entities.Perm es) (hnames : (j.entities.map Entity.name).Nodup)
    (name : String) : (j.over es).entityFiles.lookup name = j.entityFiles.lookup name := by
  have hnames' : ((j.over es).entities.map Entity.name).Nodup :=
    (hp.map Entity.name).nodup_iff.mp hnames
  refine Option.ext fun file => ?_
  rw [lookup_entityFiles hnames', lookup_entityFiles hnames]
  refine exists_congr fun e => and_congr_left fun _ => ?_
  exact hp.mem_iff.symm

/-- The files for all entities together. -/
def joints (j : Job) : List Draft :=
  (if j.indexFile then [j.jointDraft .index] else []) ++ [j.jointDraft .module]

/-- A file of a run is one for an entity, one for all, or the configuration of the compiler. -/
theorem mem_sequence_iff {x : Draft} : x ∈ j.sequence ↔
    (∃ a ∈ Layout.entityKinds, ∃ e ∈ j.entities, x = j.entityDraft a e) ∨ x ∈ j.joints ∨
      (j.layout.flat = false ∧ x = j.projectDraft) := by
  constructor
  · intro hx
    simp only [sequence, List.mem_append, List.mem_map, List.mem_singleton] at hx
    rcases hx with (((((hx | ⟨e, he, rfl⟩) | ⟨e, he, rfl⟩) | ⟨e, he, rfl⟩) | rfl) | ⟨e, he, rfl⟩) |
      hx
    · exact .inr (.inl (List.mem_append_left _ hx))
    · exact .inl ⟨.model, by decide, e, he, rfl⟩
    · exact .inl ⟨.service, by decide, e, he, rfl⟩
    · exact .inl ⟨.controller, by decide, e, he, rfl⟩
    · exact .inr (.inl (List.mem_append_right _ List.mem_cons_self))
    · exact .inl ⟨.dto, by decide, e, he, rfl⟩
    · refine .inr (.inr ?_)
      split at hx
      · exact absurd hx List.not_mem_nil
      · rename_i hflat
        exact ⟨Bool.eq_false_iff.mpr hflat, List.mem_singleton.mp hx⟩
  · rintro (⟨a, ha, e, he, rfl⟩ | hx | ⟨hflat, rfl⟩)
    · exact mem_sequence ha he
    · unfold sequence
      rcases List.mem_append.mp hx with hx | hx
      · simp only [List.mem_append]
        exact .inl (.inl (.inl (.inl (.inl (.inl hx)))))
      · simp only [List.mem_append]
        exact .inl (.inl (.inr hx))
    · unfold sequence
      rw [hflat]
      exact List.mem_append_right _ List.mem_cons_self

/-- Another order leaves the places of the files where they are. -/
theorem places_over (hp : j.entities.Perm es) :
    (j.sequence.map Draft.place).Perm ((j.over es).sequence.map Draft.place) := by
  have hkind : ∀ a, ((j.entities.map (j.entityDraft a)).map Draft.place).Perm
      (((j.over es).entities.map ((j.over es).entityDraft a)).map Draft.place) := by
    intro a
    rw [List.map_map, List.map_map]
    exact hp.map _
  have hindex : ((if (j.over es).indexFile then [(j.over es).jointDraft .index] else []).map
      Draft.place) = (if j.indexFile then [j.jointDraft .index] else []).map Draft.place := by
    show ((if j.indexFile then _ else _ : List Draft).map Draft.place) = _
    cases j.indexFile <;> rfl
  have hproject : ((if (j.over es).layout.flat then [] else [(j.over es).projectDraft]).map
      Draft.place) = (if j.layout.flat then [] else [j.projectDraft]).map Draft.place := by
    show ((if j.layout.flat then _ else _ : List Draft).map Draft.place) = _
    cases j.layout.flat <;> rfl
  unfold sequence
  simp only [List.map_append]
  rw [hindex, hproject]
  refine .append_right _ (.append (.append_right _ (.append (.append (.append_left _ ?_) ?_) ?_)) ?_)
  · exact hkind .model
  · exact hkind .service
  · exact hkind .controller
  · exact hkind .dto

/-- The files for all entities together go where they do, whatever the entities are. -/
theorem exists_joint_over {y : Draft} (hy : y ∈ (j.over es).joints) :
    ∃ x ∈ j.joints, y.place = x.place := by
  rcases List.mem_append.mp hy with hy | hy
  · split at hy
    · rename_i hindex
      rw [List.mem_singleton.mp hy]
      refine ⟨j.jointDraft .index, List.mem_append_left _ ?_, rfl⟩
      rw [if_pos (show j.indexFile = true from hindex)]
      exact List.mem_cons_self
    · exact absurd hy List.not_mem_nil
  · rw [List.mem_singleton.mp hy]
    exact ⟨j.jointDraft .module, List.mem_append_right _ List.mem_cons_self, rfl⟩

/-- **A file of the job over the same entities in another order** is one of the job, or one of those for
    all entities. -/
theorem written_over (hp : j.entities.Perm es) (hnames : (j.entities.map Entity.name).Nodup)
    (f : Formatter) {y : Draft} (hy : y ∈ (j.over es).sequence) :
    (∃ x ∈ j.sequence, y.written f = x.written f) ∨ ∃ x ∈ j.joints, y.place = x.place := by
  rcases mem_sequence_iff.mp hy with ⟨a, ha, e, he, rfl⟩ | hy | ⟨hflat, rfl⟩
  · refine .inl ⟨j.entityDraft a e, mem_sequence ha (hp.mem_iff.mpr he), ?_⟩
    have htext := text_eq_of_alike (j.alike_over es) (e := e)
      (fun r _ => lookup_over hp hnames r.related) ha
    unfold Draft.written
    rw [htext]
    rfl
  · exact .inr (exists_joint_over hy)
  · exact .inl ⟨j.projectDraft, mem_sequence_iff.mpr (.inr (.inr ⟨hflat, rfl⟩)), rfl⟩

/-- Where the files of a job have texts, so have those of the job in another order. -/
theorem exists_text_over (hp : j.entities.Perm es) (hnames : (j.entities.map Entity.name).Nodup)
    {eol : Text.Eol} (heol : j.eol = .ok eol) (h : ∀ x ∈ j.sequence, ∃ text, x.text = .ok text) :
    ∀ y ∈ (j.over es).sequence, ∃ text, y.text = .ok text := by
  intro y hy
  rcases text_cases (j := j.over es) heol y hy with htext | ⟨e, he, rfl, cause, hcause⟩
  · exact htext
  · -- a model that cannot be rendered could not be before
    rw [text_eq_of_alike (j.alike_over es) (fun r _ => lookup_over hp hnames r.related)
      (by decide)] at hcause
    obtain ⟨text, htext⟩ := h _ (mem_sequence (by decide : .model ∈ _) (hp.mem_iff.mpr he))
    exact nomatch hcause.symm.trans htext

end Job

/-- **Two runs leave the same files of entities.** The disks that they leave differ at most where the
    files for all entities together lead, and each file of an entity is there with the same text. -/
structure Undisturbed (f : Formatter) (j : Job) (ready d₁ d₂ : Disk) : Prop where
  elsewhere : ∀ q, (∀ x ∈ j.joints, ready.locate true x.place ≠ .ok q) → d₂.find? q = d₁.find? q
  entities : ∀ a ∈ Layout.entityKinds, ∀ e ∈ j.entities, ∃ text,
    (j.entityDraft a e).written f = .ok ((j.entityDraft a e).place, text) ∧ ∀ shown,
      d₁.read (j.entityDraft a e).place shown = .ok (Text.Utf8.encode text) ∧
      d₂.read (j.entityDraft a e).place shown = .ok (Text.Utf8.encode text)

/-- A file that goes where no file for all entities does is written by both runs or by neither. -/
theorem mem_filesWritten_over_iff {j : Job} {es : List Entity} (hp : j.entities.Perm es)
    (hnames : (j.entities.map Entity.name).Nodup) {f : Formatter} {d d' d₀ : Disk}
    (hfiles : j.sequence.mapM (Draft.written f) = .ok (j.filesWritten f d))
    (hfiles' : (j.over es).sequence.mapM (Draft.written f) = .ok ((j.over es).filesWritten f d'))
    {q : Path} (hq : ∀ x ∈ j.joints, d₀.locate true x.place ≠ .ok q) {x : Path × String}
    (hx : d₀.locate true x.1 = .ok q) :
    x ∈ j.filesWritten f d ↔ x ∈ (j.over es).filesWritten f d' := by
  rw [Results.mem_mapM_iff hfiles, Results.mem_mapM_iff hfiles']
  constructor
  · rintro ⟨y, hy, hxy⟩
    have hnames' : ((j.over es).entities.map Entity.name).Nodup :=
      (hp.map Entity.name).nodup_iff.mp hnames
    have hback : y ∈ ((j.over es).over j.entities).sequence := hy
    rcases Job.written_over hp.symm hnames' f hback with ⟨z, hz, hyz⟩ | ⟨z, hz, hplace⟩
    · exact ⟨z, hz, hyz ▸ hxy⟩
    · obtain ⟨z', hz', hplace'⟩ := Job.exists_joint_over hz
      rw [place_of_written hxy, hplace, hplace'] at hx
      exact absurd hx (hq z' hz')
  · rintro ⟨y, hy, hxy⟩
    rcases Job.written_over hp hnames f hy with ⟨z, hz, hyz⟩ | ⟨z, hz, hplace⟩
    · exact ⟨z, hz, hyz ▸ hxy⟩
    · rw [place_of_written hxy, hplace] at hx
      exact absurd hx (hq z hz)

section Runs

variable {j : Job} {es : List Entity} (hp : j.entities.Perm es)
  (hnames : (j.entities.map Entity.name).Nodup) {f : Formatter} {d d' : Disk} {report : Report}
  (ht : Disk.IsTree d) (ht' : Disk.IsTree d') (h : (j.run f d).result = .ok report)
  (hadded : Disk.FilesAdded (j.ready d).1 (j.ready d').1)

include hp hnames ht ht' h hadded

/-- **If a run succeeds, so does the run in another order**, on the same disk as well as on one that
    holds files of the first run already. -/
theorem succeeds_over {eol : Text.Eol} (heol : j.eol = .ok eol) {made : List Path}
    (hmade : (j.ready d').2 = .ok made) : ∃ report', ((j.over es).run f d').result = .ok report' := by
  obtain ⟨-, hfiles, hrecords⟩ := Job.filesWritten_of_run h
  have htree := (j.prepared_ready d).tree ht
  have htree' := (j.prepared_ready d').tree ht'
  have htexts : ∀ x ∈ j.sequence, ∃ text, x.text = .ok text := by
    intro x hx
    obtain ⟨file, -, hfile⟩ := Results.exists_mem_of_mapM hfiles x hx
    obtain ⟨text, htext, -⟩ := Results.map_eq_ok.mp hfile
    exact ⟨text, htext⟩
  obtain ⟨files, hfiles'⟩ := exists_files_of_text (f := f)
    (Job.exists_text_over hp hnames heol htexts)
  -- the files go to the places that files of the first run went to
  have hplace : ∀ y ∈ files, ∃ x ∈ j.filesWritten f d, x.1 = y.1 := by
    intro y hy
    have hmem : y.1 ∈ (j.over es).sequence.map Draft.place :=
      map_place_of_written hfiles' ▸ List.mem_map_of_mem hy
    rw [← (Job.places_over hp).mem_iff, ← map_place_of_written hfiles] at hmem
    exact List.mem_map.mp hmem
  have hroot : ∀ y ∈ files, (j.over es).layout.root <+: y.1 := by
    intro y hy
    obtain ⟨x, hx, hxy⟩ := hplace y hy
    exact hxy ▸ prefix_of_recorded hrecords x hx
  have hwritable : ∀ y ∈ files, (j.ready d').1.Writable y.1 := by
    intro y hy
    obtain ⟨x, hx, hxy⟩ := hplace y hy
    rw [← hxy, Disk.writable_filesAdded hadded]
    exact (Disk.exists_writeAll_iff htree).mp ⟨_, j.writeAll_filesWritten f d⟩ x hx
  rcases run_cases (j.over es) f d' hfiles' hroot with ⟨failure, hfail, -⟩ |
    ⟨_, -, ⟨report', hreport, -⟩ | ⟨before, p, text, after, failure, hsplit, hbefore, hfail, -⟩⟩
  · exact nomatch hmade.symm.trans hfail
  · exact ⟨report', hreport⟩
  · -- each file can be written, so all of them can be
    obtain ⟨d'', hall⟩ := (Disk.exists_writeAll_iff htree').mpr hwritable
    rw [hsplit] at hall
    exact nomatch hall.symm.trans (Disk.writeAll_eq_error hbefore hfail)

/-- **A run in another order leaves the same files of entities**, if no two files lead to the same
    place. -/
theorem undisturbed_over {report' : Report} (h' : ((j.over es).run f d').result = .ok report')
    (hapart : (j.ready d).1.Apart (j.sequence.map Draft.place))
    (hbase : ∀ q, (∀ x ∈ j.filesWritten f d, (j.ready d).1.locate true x.1 ≠ .ok q) →
      (j.ready d').1.find? q = (j.ready d).1.find? q) :
    Undisturbed f j (j.ready d).1 (j.run f d).disk ((j.over es).run f d').disk := by
  obtain ⟨-, hfiles, -⟩ := Job.filesWritten_of_run h
  obtain ⟨-, hfiles', -⟩ := Job.filesWritten_of_run h'
  have htree := (j.prepared_ready d).tree ht
  have htree' := (j.prepared_ready d').tree ht'
  have hall := j.writeAll_filesWritten f d
  have hall' := (j.over es).writeAll_filesWritten f d'
  have hfs : (j.ready d).1.Apart ((j.filesWritten f d).map Prod.fst) := by
    rw [map_place_of_written hfiles]
    exact hapart
  have hgs : (j.ready d).1.Apart (((j.over es).filesWritten f d').map Prod.fst) := by
    rw [map_place_of_written hfiles']
    exact hapart.perm (Job.places_over hp)
  constructor
  · intro q hq
    -- a file that goes where no file for all entities does is one of both runs
    have hsame : ∀ x : Path × String, (j.ready d).1.locate true x.1 = .ok q →
        (x ∈ j.filesWritten f d ↔ x ∈ (j.over es).filesWritten f d') :=
      fun _ => mem_filesWritten_over_iff hp hnames hfiles hfiles' hq
    exact Disk.find?_eq_of_writeAll htree htree' hadded hall hall' hfs hgs hsame (hbase q)
  · intro a ha e he
    have hy : (j.over es).entityDraft a e ∈ (j.over es).sequence :=
      Job.mem_sequence ha (hp.mem_iff.mp he)
    obtain ⟨⟨p, text⟩, hmem, hwritten⟩ :=
      Results.exists_mem_of_mapM hfiles _ (Job.mem_sequence ha he)
    obtain rfl : p = _ := place_of_written hwritten
    have hmem' : ((j.entityDraft a e).place, text) ∈ (j.over es).filesWritten f d' := by
      refine (Results.mem_mapM_iff hfiles').mpr ⟨_, hy, ?_⟩
      rw [← hwritten]
      unfold Draft.written
      rw [text_eq_of_alike (j.alike_over es) (fun r _ => Job.lookup_over hp hnames r.related) ha]
      rfl
    exact ⟨text, hwritten, fun shown => ⟨Disk.read_of_apart htree hall hfs hmem shown,
      Disk.read_of_apart htree' hall' (hgs.filesAdded hadded) hmem' shown⟩⟩

end Runs

/-! ## Generating -/

variable {w : Workspace} {es es' : List Entity} {o : Options}

/-- Legal options give the same job in another order, on every disk where the results have the same
    place. -/
theorem prepare_over (h : o.Legal) {j : Job} (hj : prepare w es o.settings = .ok j) {d : Disk}
    (hroot : d.resolve w.here o.resultsPath = .ok j.layout.root) :
    prepare { w with disk := d } es' o.settings = .ok (j.over es') := by
  obtain ⟨root, -, hne, rfl⟩ := prepare_eq_ok h hj
  exact prepare_of_legal (w := { w with disk := d }) h hroot hne

/-- A disk on which a run in another order leaves the same files of entities as the first run did. -/
structure Restart (j : Job) (f : Formatter) (d d' : Disk) : Prop where
  tree : Disk.IsTree d'
  grown : Disk.Grown d d'
  made : ∃ made, (j.ready d').2 = .ok made
  added : Disk.FilesAdded (j.ready d).1 (j.ready d').1
  base : ∀ q, (∀ x ∈ j.filesWritten f d, (j.ready d).1.locate true x.1 ≠ .ok q) →
    (j.ready d').1.find? q = (j.ready d).1.find? q

/-- The disk as it was before the run. -/
theorem restart_before {j : Job} {f : Formatter} {d : Disk} {report : Report} (ht : Disk.IsTree d)
    (h : (j.run f d).result = .ok report) : Restart j f d d where
  tree := ht
  grown := .refl d
  made := (Job.filesWritten_of_run h).1
  added := .refl _
  base _ _ := rfl

/-- The directories of a job are there after a run. -/
theorem status_of_run {j : Job} {f : Formatter} {d : Disk} {report : Report} (ht : Disk.IsTree d)
    (h : (j.run f d).result = .ok report) :
    ∀ p ∈ j.layout.targets (!j.layout.flat), (j.run f d).disk.status p = .ok .directory := by
  intro p hp
  obtain ⟨⟨made, hmade⟩, -, -⟩ := Job.filesWritten_of_run h
  have htree := (j.prepared_ready d).tree ht
  have hgrown := (Disk.grown_writeAll htree (j.writeAll_filesWritten f d)).1
  exact Disk.status_of_grown hgrown (Job.status_of_ready hmade p hp)

/-- The disk that the run left. -/
theorem restart_after {j : Job} {f : Formatter} {d : Disk} {report : Report} (ht : Disk.IsTree d)
    (h : (j.run f d).result = .ok report) : Restart j f d (j.run f d).disk := by
  have hprepared := j.prepared_ready d
  have htree := hprepared.tree ht
  have hall := j.writeAll_filesWritten f d
  obtain ⟨hgrown, htree'⟩ := Disk.grown_writeAll htree hall
  -- no directory is missing
  have hready : j.ready (j.run f d).disk = ((j.run f d).disk, .ok []) :=
    Disk.ensureAll_of_status (status_of_run ht h)
  refine ⟨htree', hprepared.added.grown.trans hgrown, ⟨[], by rw [hready]⟩, ?_, fun q hq => ?_⟩
  · rw [hready]
    exact Disk.filesAdded_writeAll htree hall
  · rw [hready]
    exact Disk.find?_of_unwritten htree hall hq

/-- **A run that succeeds succeeds in every order of its entities**, and leaves the same files of
    entities. -/
theorem generate_over (ho : o.Legal) (hnames : (es.map Entity.name).Nodup) (hp : es.Perm es')
    (ht : Disk.IsTree w.disk) {formatter : Option Formatter} {report : Report} {j : Job}
    (hj : prepare w es o.settings = .ok j)
    (h : (generate w formatter es o.settings).result = .ok report)
    (hapart : (j.ready w.disk).1.Apart (j.sequence.map Draft.place)) {d : Disk}
    (hd : d = w.disk ∨ d = (generate w formatter es o.settings).disk) :
    (∃ report', (generate { w with disk := d } formatter es' o.settings).result = .ok report') ∧
      Undisturbed (formatter.getD (ownFormatter w o.settings)) j (j.ready w.disk).1
        (generate w formatter es o.settings).disk
        (generate { w with disk := d } formatter es' o.settings).disk := by
  obtain ⟨root, hroot, hne, hjob⟩ := prepare_eq_ok ho hj
  have hentities : j.entities = es := by rw [hjob]; rfl
  have heol : j.eol = .ok o.eol := by rw [hjob]; rfl
  have hlayout : j.layout.root = root := by rw [hjob]; rfl
  rw [generate_of_prepare hj] at h hd ⊢
  have hrestart : Restart j (formatter.getD (ownFormatter w o.settings)) w.disk d := by
    rcases hd with rfl | rfl
    · exact restart_before ht h
    · exact restart_after ht h
  have hplace : d.resolve w.here o.resultsPath = .ok j.layout.root := by
    rw [hlayout]
    rcases hd with rfl | rfl
    · exact hroot
    · refine Disk.resolve_of_grown hrestart.grown hroot ?_
      rw [← hlayout, status_of_run ht h j.layout.root List.mem_cons_self]
      exact nofun
  rw [generate_of_prepare (prepare_over ho hj hplace)]
  have hp' : j.entities.Perm es' := hentities ▸ hp
  have hnames' : (j.entities.map Entity.name).Nodup := hentities ▸ hnames
  obtain ⟨made, hmade⟩ := hrestart.made
  obtain ⟨report', hreport'⟩ :=
    succeeds_over hp' hnames' ht hrestart.tree h hrestart.added heol hmade
  exact ⟨⟨report', hreport'⟩, undisturbed_over hp' hnames' ht hrestart.tree h hrestart.added hreport'
    hapart hrestart.base⟩

/-- **Files go to different places** if the entities' files are called differently, no name that is left
    as it is holds a slash, and no link lies on the way to the results or below. -/
theorem apart_of_stems (ho : o.Legal) (hhere : Disk.Slashless w.here) (hup : Disk.Upless w.here)
    {j : Job} (hj : prepare w es o.settings = .ok j)
    (hfile : o.fileCase = .verbatim → ∀ e ∈ es, '/' ∉ e.fileName.toList)
    (hlinks : Disk.LinkFree w.disk j.layout.root)
    (hstems : (es.map fun e => j.policy.fileStem e.fileName).Nodup) :
    (j.ready w.disk).1.Apart (j.sequence.map Draft.place) := by
  obtain ⟨root, hroot, hne, rfl⟩ := prepare_eq_ok ho hj
  have hslashless : (jobOf w es o ho root).Slashless := slashless_jobOf ho hfile
  have hext : (jobOf w es o ho root).Extended := extended_jobOf ho
  have hgrown := ((jobOf w es o ho root).prepared_ready w.disk).added.grown
  refine Disk.apart_of_linkFree (hlinks.of_grown hgrown) ?_ ?_
  · intro p hp
    obtain ⟨x, hx, rfl⟩ := List.mem_map.mp hp
    exact upless_place hext hslashless (slash_not_mem_module ho hhere hroot hne)
      (Disk.upless_resolve hup hroot) hx
  · exact (nodup_places_iff hext).mpr fun a ha =>
      (nodup_places_iff_stems hext hslashless ha).mpr hstems

/-- **The files of an entity depend on no other entity** but by what the files of those are called after
    that it refers to, nor on the order of the entities.

    Two runs over entities of documents, with the same options, have the same texts for the files of an
    entity that both have, if what it refers to has its files called the same in both. And if a run
    succeeds and no two of its files lead to the same place, then it succeeds in every order, before the
    first run as well as after it, and leaves the same disk but for the files for all entities. No two
    files lead to the same place if the entities' files are called differently, without slashes, and no
    link is in the way. -/
theorem generate_independent {platform : String} {v : Value}
    (ho : Options.read platform v = .valid o) (hes : Accepted es) :
    (∀ {w' : Workspace} {j j' : Job}, Accepted es' → w'.platform = w.platform →
      prepare w es o.settings = .ok j → prepare w' es' o.settings = .ok j' →
      ∀ e ∈ es, e ∈ es' →
        (∀ r ∈ e.relations, ∀ file, FiledAs es' r.related file ↔ FiledAs es r.related file) →
        ∀ a ∈ Layout.entityKinds, j.entityDraft a e ∈ j.sequence ∧ j'.entityDraft a e ∈ j'.sequence ∧
          (j'.entityDraft a e).text = (j.entityDraft a e).text ∧
          ∀ f, ((j'.entityDraft a e).written f).map Prod.snd =
            ((j.entityDraft a e).written f).map Prod.snd) ∧
    (∀ {formatter : Option Formatter} {report : Report} {j : Job}, es.Perm es' →
      Disk.IsTree w.disk → prepare w es o.settings = .ok j →
      (generate w formatter es o.settings).result = .ok report →
      (j.ready w.disk).1.Apart (j.sequence.map Draft.place) →
      ∀ d, d = w.disk ∨ d = (generate w formatter es o.settings).disk →
        (∃ report', (generate { w with disk := d } formatter es' o.settings).result = .ok report') ∧
        Undisturbed (formatter.getD (ownFormatter w o.settings)) j (j.ready w.disk).1
          (generate w formatter es o.settings).disk
          (generate { w with disk := d } formatter es' o.settings).disk) ∧
    ∀ {j : Job}, Disk.Slashless w.here → Disk.Upless w.here → prepare w es o.settings = .ok j →
      (o.fileCase = .verbatim → ∀ e ∈ es, '/' ∉ e.fileName.toList) →
      Disk.LinkFree w.disk j.layout.root →
      (es.map fun e => j.policy.fileStem e.fileName).Nodup →
      (j.ready w.disk).1.Apart (j.sequence.map Draft.place) := by
  have hlegal := Schema.legal_of_read ho
  have hnames := Schema.nodup_of_accepted hes
  refine ⟨fun {w' j j'} hes' hplatform hj hj' e he he' hfiled a ha => ?_,
    fun {formatter report j} hp ht hj h hapart d hd =>
      generate_over hlegal hnames hp ht hj h hapart hd,
    fun {j} hhere hup hj hfile hlinks hstems =>
      apart_of_stems hlegal hhere hup hj hfile hlinks hstems⟩
  obtain ⟨root, -, -, rfl⟩ := prepare_eq_ok hlegal hj
  obtain ⟨root', -, -, rfl⟩ := prepare_eq_ok hlegal hj'
  have halike : (jobOf w es o hlegal root).Alike (jobOf w' es' o hlegal root') :=
    ⟨rfl, rfl, rfl, hplatform, rfl⟩
  have hfiles : ∀ r ∈ e.relations, (jobOf w' es' o hlegal root').entityFiles.lookup r.related =
      (jobOf w es o hlegal root).entityFiles.lookup r.related := by
    intro r hr
    refine Option.ext fun file => ?_
    have hnames' := Schema.nodup_of_accepted hes'
    rw [(jobOf w' es' o hlegal root').lookup_entityFiles hnames',
      (jobOf w es o hlegal root).lookup_entityFiles hnames]
    exact hfiled r hr file
  exact ⟨Job.mem_sequence ha he, Job.mem_sequence ha he', text_eq_of_alike halike hfiles ha,
    printed_eq_of_alike halike hfiles ha⟩

/-- A user, a team that refers to it, and an entity that has nothing to do with them. -/
def strangerEntities : List Entity := [bareEntity "post", team ["user"], bareEntity "user"]

/-- The job of a run over these on an empty disk. -/
def strangerJob : Job :=
  jobOf (.ofDisk ⟨[]⟩) strangerEntities (Options.standard "\n") (Schema.legal_standard "\n")
    ["output"]

theorem accepted_stranger : Accepted strangerEntities := by
  have hnames : Schema.repeated (strangerEntities.map Entity.name) = [] := by decide +kernel
  exact ⟨"\n", [(.text "entities", .list [.map [(.text "tscName", .text "post")],
    .map [(.text "tscName", .text "team"), (.text "relations", .list [.map
      [(.text "relationType", .text "OneToMany"), (.text "relatedTable", .text "user"),
       (.text "fieldName", .text "user")]])],
    .map [(.text "tscName", .text "user")]])], Options.standard "\n",
    Schema.readDocument_of_combine hnames (Schema.read_nil "\n") rfl⟩

/-- A team and its user: what is made of the team is the same with a stranger among the entities, and the
    runs on an empty disk leave the same in both orders. -/
theorem independent_team :
    (∀ a ∈ Layout.entityKinds,
      (teamJob ["user"]).entityDraft a (team ["user"]) ∈ (teamJob ["user"]).sequence ∧
      strangerJob.entityDraft a (team ["user"]) ∈ strangerJob.sequence ∧
      (strangerJob.entityDraft a (team ["user"])).text =
        ((teamJob ["user"]).entityDraft a (team ["user"])).text ∧
      ∀ f, ((strangerJob.entityDraft a (team ["user"])).written f).map Prod.snd =
        (((teamJob ["user"]).entityDraft a (team ["user"])).written f).map Prod.snd) ∧
    ∃ report report',
      (generate (.ofDisk ⟨[]⟩) (some Formatter.keep) (teamEntities ["user"])
        (Options.standard "\n").settings).result = .ok report ∧
      (generate (.ofDisk ⟨[]⟩) (some Formatter.keep) [team ["user"], bareEntity "user"]
        (Options.standard "\n").settings).result = .ok report' ∧
      Undisturbed Formatter.keep (teamJob ["user"]) ((teamJob ["user"]).ready ⟨[]⟩).1
        (generate (.ofDisk ⟨[]⟩) (some Formatter.keep) (teamEntities ["user"])
          (Options.standard "\n").settings).disk
        (generate (.ofDisk ⟨[]⟩) (some Formatter.keep) [team ["user"], bareEntity "user"]
          (Options.standard "\n").settings).disk := by
  have hj := prepare_team ["user"]
  constructor
  · have hfiled : ∀ r ∈ (team ["user"]).relations, ∀ file,
        FiledAs strangerEntities r.related file ↔ FiledAs (teamEntities ["user"]) r.related file := by
      intro r hr file
      cases List.mem_singleton.mp hr
      simp [FiledAs, strangerEntities, teamEntities, bareRelation, bareEntity, team]
    exact (@generate_independent (.ofDisk ⟨[]⟩) _ strangerEntities _ _ _ (Schema.read_nil "\n")
      accepted_team).1 accepted_stranger rfl hj (prepare_standard strangerEntities) (team ["user"])
      (List.mem_append_right _ List.mem_cons_self) (by simp [strangerEntities]) hfiled
  · have hrun : (generate (.ofDisk ⟨[]⟩) (some Formatter.keep) (teamEntities ["user"])
        (Options.standard "\n").settings).result.toOption.isSome = true := by
      decide +kernel
    obtain ⟨report, hreport⟩ := Results.exists_eq_ok hrun
    have hstems : ((teamEntities ["user"]).map fun e =>
        (Naming.CaseStyle.pascal).convert e.fileName).Nodup := by
      decide +kernel
    obtain ⟨-, hperm, hplaces⟩ := @generate_independent (.ofDisk ⟨[]⟩) _
      [team ["user"], bareEntity "user"] _ _ _ (Schema.read_nil "\n") accepted_team
    have hapart := hplaces Disk.slashless_nil Disk.upless_nil hj (by decide) (Disk.linkFree_nil _)
      hstems
    obtain ⟨⟨report', hreport'⟩, hsame⟩ :=
      hperm (.swap _ _ _) Disk.isTree_nil hj hreport hapart ⟨[]⟩ (.inl rfl)
    exact ⟨report, report', hreport, hreport', hsame⟩

/-! ## Clashes -/

/-- An entity whose files are called after something else. -/
def renamedEntity (name file : String) : Entity := { bareEntity name with fileName := file }

/-- The options that leave the names of files as they are. -/
def givenNameOptions : Options := { Options.standard "\n" with fileCase := .verbatim }

theorem legal_givenName : givenNameOptions.Legal :=
  { Schema.legal_standard "\n" with
    fileCase := (by decide : Naming.CaseStyle.verbatim ∈ Naming.CaseStyle.forFiles) }

/-- The document with two entities, whose files are called differently but go to the same places. -/
def clashDocument (first second : String × String) : Entries :=
  [(.text "entities", .list ([first, second].map fun x =>
      .map [(.text "tscName", .text x.1), (.text "fileName", .text x.2)])),
   (.text "config", .map [(.text "convertCaseFile", .text "none")])]

/-- Its entities. -/
def clashEntities (first second : String × String) : List Entity :=
  [renamedEntity first.1 first.2, renamedEntity second.1 second.2]

theorem readDocument_clash (first second : String × String)
    (hnames : Schema.repeated ((clashEntities first second).map Entity.name) = [])
    (hdoc : (Schema.readDocument "\n" (clashDocument first second)).result =
      Schema.combine "\n" (.map [(.text "convertCaseFile", .text "none")])
        (clashEntities first second)) :
    (Schema.readDocument "\n" (clashDocument first second)).result =
      .ok (clashEntities first second, givenNameOptions) :=
  Schema.readDocument_of_combine hnames rfl hdoc

/-- **The order can matter although all files are called differently.** Names that are left as they are
    can lead to the same place, and then the later entity has its file there. -/
theorem exists_order_matters : ∃ (w : Workspace) (doc doc' : Entries) (es es' : List Entity)
    (o : Options) (j : Job) (e : Entity) (report report' : Report),
    (Schema.readDocument w.platform doc).result = .ok (es, o) ∧
      (Schema.readDocument w.platform doc').result = .ok (es', o) ∧ es.Perm es' ∧
      prepare w es o.settings = .ok j ∧
      (es.map fun e => j.policy.fileStem e.fileName).Nodup ∧ e ∈ es ∧
      (generate w (some Formatter.keep) es o.settings).result = .ok report ∧
      (generate w (some Formatter.keep) es' o.settings).result = .ok report' ∧
      (generate w (some Formatter.keep) es' o.settings).disk.read (j.entityDraft .dto e).place "" ≠
        (generate w (some Formatter.keep) es o.settings).disk.read (j.entityDraft .dto e).place "" := by
  have hread := readDocument_clash ("user", "user") ("post", "./user") (by decide +kernel) rfl
  have hread' := readDocument_clash ("post", "./user") ("user", "user") (by decide +kernel) rfl
  have hroot : (⟨[]⟩ : Disk).resolve [] givenNameOptions.resultsPath = .ok ["output"] := rfl
  have hj : prepare (.ofDisk ⟨[]⟩) (clashEntities ("user", "user") ("post", "./user"))
      givenNameOptions.settings = .ok (jobOf (.ofDisk ⟨[]⟩)
        (clashEntities ("user", "user") ("post", "./user")) _ legal_givenName ["output"]) :=
    prepare_of_legal _ hroot (by decide)
  -- one decision about both runs, so that each is evaluated once
  have hruns : (generate (.ofDisk ⟨[]⟩) (some Formatter.keep)
        (clashEntities ("user", "user") ("post", "./user"))
        givenNameOptions.settings).result.toOption.isSome = true ∧
      (generate (.ofDisk ⟨[]⟩) (some Formatter.keep)
        (clashEntities ("post", "./user") ("user", "user"))
        givenNameOptions.settings).result.toOption.isSome = true ∧
      (generate (.ofDisk ⟨[]⟩) (some Formatter.keep)
        (clashEntities ("post", "./user") ("user", "user"))
        givenNameOptions.settings).disk.read ["output", "dtos", "user.dto.ts"] "" ≠
      (generate (.ofDisk ⟨[]⟩) (some Formatter.keep)
        (clashEntities ("user", "user") ("post", "./user"))
        givenNameOptions.settings).disk.read ["output", "dtos", "user.dto.ts"] "" := by
    decide +kernel
  obtain ⟨hfirst, hsecond, hdiffer⟩ := hruns
  obtain ⟨report, hreport⟩ := Results.exists_eq_ok hfirst
  obtain ⟨report', hreport'⟩ := Results.exists_eq_ok hsecond
  refine ⟨.ofDisk ⟨[]⟩, _, _, _, _, givenNameOptions, _, renamedEntity "user" "user", report, report',
    hread, hread', .swap _ _ _, hj, ?_, List.mem_cons_self, hreport, hreport', ?_⟩
  · decide +kernel
  · exact hdiffer

end Scaffold.Generation
