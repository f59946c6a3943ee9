import Scaffold.Proofs.Generation.Places
import Scaffold.Proofs.Generation.Texts
import Scaffold.Proofs.Source.Files

/-!
# `Scaffold.Proofs.Generation.References` — what files of a run say about each other

A statement in a generated file leads to another file of the same run, and takes from it the class
that is declared there, as it is exported there (`LeadsTo`). Paths, file names and names of classes
are made at different places of the program; the run is told by its texts alone, which are read back
(`references`, `declarations`). In services, controllers, the module and the index there are no other
statements about files (`generate_linked`).

## Contents
- **Classes.** `Job.Importable`, `mem_declarations`.
- **Ways.** `IsWay`, `isWay_importPrefix`, `place_of_way`.
- **Statements.** `Job.statement`, `LeadsTo`, `Job.Ready`, `leadsTo_statement`, `leadsTo_reexport`.
- **Files.** `RefersTo`, `Linked`, `Job.Ready.linked`, `generate_linked`.
-/

namespace Scaffold.Generation

open Disk (Path partsOf)
open Naming (Quotable)
open Schema (Entity Options)
open Source (Clause Lines Statement declarations finishChars joinLines references)
open Text (Eol IsLineEnding recast)

variable {j : Job} {eol : Eol}

/-! ## Classes -/

/-- The converted names of entities and of their files can stand in statements as they are. -/
structure Job.Importable (j : Job) : Prop where
  names : ∀ e ∈ j.entities, Naming.Importable (j.policy.entityBase e.name)
  files : ∀ e ∈ j.entities, Naming.Importable (j.policy.fileStem e.fileName)

theorem Job.Importable.slashless (h : j.Importable) : j.Slashless :=
  fun e he => (h.files e he).slashless

theorem pruned_eq {a : Artifact} (ha : a ≠ .index) (text : String) :
    Job.pruned a text = String.ofList (finishChars (a ≠ .model) text.toList) := by
  have hprune : Source.prune text Source.baseClass =
      String.ofList (finishChars false text.toList) := rfl
  have hremove : Source.removeEmptyImport (Source.prune text Source.baseClass) =
      String.ofList (finishChars true text.toList) := by
    unfold Source.removeEmptyImport Source.prune
    rw [String.toList_ofList]
    rfl
  cases a with
  | index => exact absurd rfl ha
  | model => exact hprune
  | dto => exact hremove
  | service => exact hremove
  | controller => exact hremove
  | module => exact hremove

/-- The text that lines give. -/
theorem finished_ok (heol : j.eol = .ok eol) {a : Artifact} (ha : a ≠ .index) (ls : Lines) :
    j.finished a ls = .ok (String.ofList (finishChars (a ≠ .model)
      (recast eol j.platform (joinLines j.platform ls).toList))) := by
  rw [j.finished_eq heol, pruned_eq ha, Text.normalize_eq, String.toList_ofList]

theorem mem_declarations_of_line {l : List Char} {u : List Char} {d : Bool × String}
    (hl : l ∈ Text.linesOf u) (hd : Source.declaration? l = some d) :
    d ∈ declarations (String.ofList u) := by
  unfold declarations
  rw [String.toList_ofList]
  exact List.mem_filterMap.mpr ⟨l, hl, hd⟩

/-- A model that has a text was rendered from lines. -/
theorem exists_lines_of_model {e : Entity} {u : String} (h : (j.entityDraft .model e).text = .ok u) :
    ∃ ls, Source.modelLines j.policy (Path.moduleFrom (j.layout.directory .model)
      (j.layout.root ++ [Layout.commonName])) j.entityFiles e.forModel = .ok ls ∧
      j.finished .model ls = .ok u := by
  rw [j.text_model] at h
  cases hls : Source.modelLines j.policy (Path.moduleFrom (j.layout.directory .model)
      (j.layout.root ++ [Layout.commonName])) j.entityFiles e.forModel with
  | error f =>
      rw [hls] at h
      have hfault : Except.error (Source.RenderFault.unwritable f) = Except.ok u := h
      exact absurd hfault (by simp)
  | ok ls =>
      rw [hls] at h
      exact ⟨ls, rfl, h⟩

/-- The class whose head follows a decorator is declared in the finished text. -/
theorem mem_declarations_decorated (hp : IsLineEnding j.platform) (heol : j.eol = .ok eol)
    {a : Artifact} (ha : a ≠ .index) {names package l : String} (hnames : Source.Taken names package)
    (hl : Source.Standing l.toList) {declared : Bool × String}
    (hread : Source.declaration? l.toList = some declared) {mid rest : Lines} {decorator u : String}
    (hu : j.finished a ((Source.taken names package).line ::
      (mid ++ (decorator ++ ")") :: l :: rest)) = .ok u) : declared ∈ declarations u := by
  rw [finished_ok heol ha] at hu
  cases hu
  exact mem_declarations_of_line
    (Source.mem_linesOf_decorated (e := eol) hp hnames hl mid decorator rest _) hread

/-- So is the class whose head follows the imports. -/
theorem mem_declarations_imported (hp : IsLineEnding j.platform) (heol : j.eol = .ok eol)
    {a : Artifact} (ha : a ≠ .index) {names package l : String} (hnames : Source.Taken names package)
    (hl : Source.Standing l.toList) {declared : Bool × String}
    (hread : Source.declaration? l.toList = some declared) {ss : List Statement} {rest : Lines}
    {u : String} (hu : j.finished a ((Source.taken names package).line ::
      (ss.map Statement.line ++ "" :: l :: rest)) = .ok u) : declared ∈ declarations u := by
  have hmid : ∀ m ∈ ss.map Statement.line, ∃ front, m = front ++ ";" := by
    intro m hm
    obtain ⟨s, _, rfl⟩ := List.mem_map.mp hm
    exact ⟨s.clause.front ++ "\"" ++ s.path ++ "\"", by rw [String.append_assoc]; rfl⟩
  rw [finished_ok heol ha] at hu
  cases hu
  exact mem_declarations_of_line
    (Source.mem_linesOf_imported (e := eol) hp hnames hl hmid rest _) hread

/-- **A file that is made per entity declares the class that is named after its kind**, and exports it
    as the policy says. -/
theorem mem_declarations (hp : IsLineEnding j.platform) (heol : j.eol = .ok eol) {a : Artifact}
    (ha : a ∈ Layout.entityKinds) {e : Entity} (he : Quotable (j.policy.entityBase e.name))
    {u : String} (hu : (j.entityDraft a e).text = .ok u) {name : String}
    (hname : j.policy.className? a e.name = some name) :
    (j.policy.isDefaultExport, name) ∈ declarations u := by
  obtain ⟨suffix, hsuffix, rfl⟩ := Option.map_eq_some_iff.mp hname
  have hstanding := Source.standing_headLine j.policy ha hsuffix he
  have hread : Source.declaration? (Source.headLine j.policy a
      (j.policy.entityBase e.name ++ suffix)).toList =
      some (j.policy.isDefaultExport, j.policy.entityBase e.name ++ suffix) :=
    Source.declaration?_headLine j.policy ha hsuffix
  rcases Layout.cases_entityKind ha with rfl | rfl | rfl | rfl <;> cases hsuffix
  · -- the decorators of indices stand between the imports and the class of a model
    obtain ⟨ls, hls, hfinished⟩ := exists_lines_of_model hu
    obtain ⟨indices, decorator, rest, -, -, rfl⟩ := Source.modelLines_eq j.policy hls
    have hassoc : ∀ ls ls' : Lines, ls ++ "" :: (indices ++ ls') = (ls ++ "" :: indices) ++ ls' :=
      fun ls ls' => (List.append_assoc ls ("" :: indices) ls').symm
    rw [hassoc] at hfinished
    exact mem_declarations_decorated hp heol (by decide) Source.Taken.model hstanding hread hfinished
  · obtain ⟨rest, hlines⟩ := Source.dtoLines_eq j.policy j.entityFiles e.forDto
    rw [j.text_dto, hlines] at hu
    exact mem_declarations_imported hp heol (by decide) Source.Taken.dto hstanding hread hu
  · obtain ⟨rest, hlines⟩ := Source.serviceLines_eq j.policy (j.layout.importPrefix .service .model)
      (j.layout.importPrefix .service .dto) e
    rw [j.text_service, hlines, List.append_cons] at hu
    exact mem_declarations_decorated hp heol (by decide) Source.Taken.injectable hstanding hread hu
  · obtain ⟨decorator, rest, -, hlines⟩ := Source.controllerLines_eq j.policy
      (j.layout.importPrefix .controller .service) (j.layout.importPrefix .controller .dto) e
      e.oneToMany
    rw [j.text_controller, hlines, List.append_cons] at hu
    exact mem_declarations_decorated hp heol (by decide) Source.Taken.controller hstanding hread hu

/-! ## Ways -/

/-- A path that a statement can hold, and that leads away from where it stands. -/
def IsWay (path : String) : Prop := Quotable path ∧ path.toList.head? = some '.'

instance (path : String) : Decidable (IsWay path) := by unfold IsWay; infer_instance

theorem isWay_importPrefix (l : Layout) (a b : Artifact) : IsWay (l.importPrefix a b) := by
  rw [Layout.importPrefix_eq]
  generalize l.flat = flat
  cases flat <;> cases a <;> cases b <;> decide

/-- **The path of a statement leads to the file of an entity**, if what stands before the name leads to
    the directory of its kind. -/
theorem place_of_way (hext : j.Extended) {directory : Path} {way : String} {a : Artifact}
    (ha : a ∈ Layout.entityKinds)
    (hway : Path.normalFrom directory (partsOf way) = j.layout.directory a) {e : Entity}
    (he : '/' ∉ (j.policy.fileStem e.fileName).toList) :
    Path.normalFrom directory
      (partsOf (way ++ "/" ++ j.policy.fileName a e.fileName ++ "." ++ j.extension)) =
      (j.entityDraft a e).place := by
  have hname := isPart_append_ending hext a he
  rw [← fileName_eq ha] at hname
  have hpath : way ++ "/" ++ j.policy.fileName a e.fileName ++ "." ++ j.extension =
      way ++ "/" ++ j.fileName a e.fileName := by
    unfold Job.fileName
    simp only [String.append_assoc]
  -- the name of the file is one part of the path, and the last one
  rw [hpath, Disk.partsOf_slash, Disk.partsOf_part hname.1, Disk.normalFrom_append, hway,
    place_entityDraft hext ha he]
  exact Disk.normalFrom_names (by simpa using hname.2) _

/-! ## Statements -/

/-- The statement that imports the class of an entity's file of a kind. -/
def Job.statement (j : Job) (way : String) (a : Artifact) (e : Entity) : Statement :=
  .toClass j.policy ((j.policy.className? a e.name).getD "")
    (way ++ "/" ++ j.policy.fileName a e.fileName)

/-- **A statement in a directory leads to the file of a kind that is made for an entity.** -/
structure LeadsTo (j : Job) (directory : Path) (form : Bool → String → Clause) (s : Statement)
    (a : Artifact) (e : Entity) : Prop where
  /-- With the extension its path leads to the place of the file. -/
  place : Path.normalFrom directory (partsOf (s.path ++ "." ++ j.extension)) =
    (j.entityDraft a e).place
  /-- The run writes the file, and no other one there. -/
  written : j.entityDraft a e ∈ j.sequence
  alone : ∀ x ∈ j.sequence, x.place = (j.entityDraft a e).place → x = j.entityDraft a e
  /-- It takes the class of that file, in the form for default exports exactly if the class is declared
      there as one. -/
  clause : ∃ isDefault name, j.policy.className? a e.name = some name ∧
    s.clause = form isDefault name ∧
    ∀ text, (j.entityDraft a e).text = .ok text → (isDefault, name) ∈ declarations text

/-- What a run must fulfil so that its files can refer to each other. -/
structure Job.Ready (j : Job) (eol : Eol) : Prop where
  extended : j.Extended
  importable : j.Importable
  stems : (j.entities.map fun e => j.policy.fileStem e.fileName).Nodup
  platform : IsLineEnding j.platform
  eol : j.eol = .ok eol

theorem Job.Ready.alone (h : j.Ready eol) {x y : Draft} (hx : x ∈ j.sequence) (hy : y ∈ j.sequence)
    (hplace : x.place = y.place) : x = y := by
  have hnodup : (j.sequence.map Draft.place).Nodup := by
    rw [nodup_places_iff h.extended]
    intro a ha
    exact (nodup_places_iff_stems h.extended h.importable.slashless ha).mpr h.stems
  exact List.inj_on_of_nodup_map hnodup hx hy hplace

/-- A statement of the right path that names the class leads to the file. -/
theorem Job.Ready.leadsTo (h : j.Ready eol) {directory : Path} {way : String} {a : Artifact}
    (ha : a ∈ Layout.entityKinds)
    (hway : Path.normalFrom directory (partsOf way) = j.layout.directory a) {e : Entity}
    (he : e ∈ j.entities) {form : Bool → String → Clause} {s : Statement}
    (hpath : s.path = way ++ "/" ++ j.policy.fileName a e.fileName) {name : String}
    (hname : j.policy.className? a e.name = some name)
    (hclause : s.clause = form j.policy.isDefaultExport name) : LeadsTo j directory form s a e := by
  have hslashless := h.importable.slashless e he
  refine ⟨?_, Job.mem_sequence ha he, ?_, j.policy.isDefaultExport, name, hname, hclause, ?_⟩
  · rw [hpath]
    exact place_of_way h.extended ha hway hslashless
  · exact fun x hx hplace => h.alone hx (Job.mem_sequence ha he) hplace
  · intro u hu
    exact mem_declarations h.platform h.eol ha (h.importable.names e he).quotable hu hname

theorem Job.Ready.leadsTo_statement (h : j.Ready eol) {directory : Path} {way : String} {a : Artifact}
    (ha : a ∈ Layout.entityKinds)
    (hway : Path.normalFrom directory (partsOf way) = j.layout.directory a) {e : Entity}
    (he : e ∈ j.entities) : LeadsTo j directory .importing (j.statement way a e) a e := by
  have hname : j.policy.className? a e.name = some ((j.policy.className? a e.name).getD "") := by
    rcases Layout.cases_entityKind ha with rfl | rfl | rfl | rfl <;> rfl
  exact h.leadsTo ha hway he rfl hname rfl

/-- The statement that exports the model of an entity again. -/
theorem Job.Ready.leadsTo_reexport (h : j.Ready eol) {e : Entity} (he : e ∈ j.entities) :
    LeadsTo j (j.layout.directory .index) .exporting (.reexport j.policy (Job.mention e)) .model e := by
  have hway : Path.normalFrom (j.layout.directory .index) (partsOf ".") =
      j.layout.directory .model := by
    rw [show partsOf "." = [] from by decide, Layout.directory_eq, Layout.directory_eq]
    rfl
  exact h.leadsTo (by decide) hway he rfl rfl rfl

/-- A converted name with the suffix of a kind can stand in a statement and is not blank. -/
theorem quotable_class {p : Naming.Policy} {a : Artifact} (ha : a ∈ Layout.entityKinds)
    {base : String} (hbase : Quotable (p.entityBase base)) :
    Quotable ((p.className? a base).getD "") ∧
      ¬ Source.Blank ((p.className? a base).getD "").toList := by
  have hsuffix : ∀ suffix : String, Quotable suffix → ¬ Source.Blank suffix.toList →
      Quotable (p.entityBase base ++ suffix) ∧
        ¬ Source.Blank (p.entityBase base ++ suffix).toList := by
    intro suffix hquotable hsolid
    refine ⟨hbase.append hquotable, fun hblank => hsolid fun c hc => hblank c ?_⟩
    rw [String.toList_append]
    exact List.mem_append_right _ hc
  rcases Layout.cases_entityKind ha with rfl | rfl | rfl | rfl <;> exact hsuffix _ (by decide) (by decide)

theorem quotable_fileName {p : Naming.Policy} {a : Artifact} (ha : a ∈ Layout.entityKinds)
    {base : String} (hbase : Quotable (p.fileStem base)) : Quotable (p.fileName a base) := by
  rcases Layout.cases_entityKind ha with rfl | rfl | rfl | rfl <;> exact hbase.append (by decide)

/-- A statement that a file can begin with, about another file. -/
structure IsReference (s : Statement) : Prop where
  plain : s.Plain
  substantial : s.clause.Substantial
  isLocal : s.isLocal = true

theorem isLocal_of_way {way rest : String} (h : IsWay way) (c : Clause) :
    (⟨c, way ++ rest⟩ : Statement).isLocal = true := by
  have hhead : (way ++ rest).toList.head? = some '.' := by
    rw [String.toList_append, List.head?_append, h.2]
    rfl
  exact decide_eq_true hhead

theorem isReference_toClass {p : Naming.Policy} {symbol way rest : String} (hsymbol : Quotable symbol)
    (hsolid : ¬ Source.Blank symbol.toList) (hway : IsWay way) (hrest : Quotable rest) :
    IsReference (Statement.toClass p symbol (way ++ rest)) := by
  unfold Statement.toClass
  refine ⟨⟨?_, hway.1.append hrest⟩, ?_, isLocal_of_way hway _⟩
  · intro n hn
    have hn' : some symbol = some n := by
      cases hp : p.isDefaultExport <;> rw [hp] at hn <;> exact hn
    exact Option.some.inj hn' ▸ hsymbol
  · cases p.isDefaultExport
    · exact hsolid
    · trivial

/-- A statement about a file of a kind is a reference, if its names can stand in it. -/
theorem isReference_statement {way : String} (hway : IsWay way) {a : Artifact}
    (ha : a ∈ Layout.entityKinds) {e : Entity} (hname : Quotable (j.policy.entityBase e.name))
    (hstem : Quotable (j.policy.fileStem e.fileName)) : IsReference (j.statement way a e) := by
  obtain ⟨hsymbol, hsolid⟩ := quotable_class ha hname
  have hfile := quotable_fileName ha hstem
  have hslash : Quotable "/" := by decide
  have hpath : way ++ "/" ++ j.policy.fileName a e.fileName =
      way ++ ("/" ++ j.policy.fileName a e.fileName) := String.append_assoc
  unfold Job.statement
  rw [hpath]
  exact isReference_toClass hsymbol hsolid hway (hslash.append hfile)

theorem Job.Importable.isReference (h : j.Importable) {way : String} (hway : IsWay way)
    {a : Artifact} (ha : a ∈ Layout.entityKinds) {e : Entity} (he : e ∈ j.entities) :
    IsReference (j.statement way a e) :=
  isReference_statement hway ha (h.names e he).quotable (h.files e he).quotable

/-! ## Files -/

/-- **What a file says about other files**: its statements about files lead to the listed ones, one by
    one and in order. -/
def RefersTo (j : Job) (x : Draft) (form : Bool → String → Clause)
    (targets : List (Artifact × Entity)) : Prop :=
  ∃ text, x.text = .ok text ∧
    List.Forall₂ (fun s t => LeadsTo j x.directory form s t.1 t.2) (references text) targets

/-- **The files of a run refer to each other.** -/
structure Linked (j : Job) : Prop where
  services : ∀ e ∈ j.entities, RefersTo j (j.entityDraft .service e) .importing [(.model, e), (.dto, e)]
  controllers : ∀ e ∈ j.entities,
    RefersTo j (j.entityDraft .controller e) .importing [(.service, e), (.dto, e)]
  module : RefersTo j (j.jointDraft .module) .importing
    (j.entities.flatMap fun e => [(.model, e), (.service, e), (.controller, e)])
  index : RefersTo j (j.jointDraft .index) .exporting (j.entities.map fun e => (.model, e))

/-- The statements of a kind of file about files of kinds. -/
def Job.statementsTo (j : Job) (b : Artifact) (targets : List (Artifact × Entity)) : List Statement :=
  targets.map fun t => j.statement (j.layout.importPrefix b t.1) t.1 t.2

/-- A statement about a package that a file can begin with. -/
structure IsForeign (s : Statement) : Prop where
  plain : s.Plain
  substantial : s.clause.Substantial
  isLocal : s.isLocal = false

/-- The statements about files that a file begins with are read back. -/
theorem references_of_lines (hp : IsLineEnding j.platform) (heol : j.eol = .ok eol) {b : Artifact}
    (hb : b ≠ .index) {x : Draft} {names package l : String} (hnames : Source.Taken names package)
    {foreign ss : List Statement} (hforeign : ∀ s ∈ foreign, IsForeign s)
    (hss : ∀ s ∈ ss, IsReference s) (hl : l.toList.head? ≠ some '\n') {rest : Lines}
    (hx : x.text = j.finished b ((Source.taken names package).line ::
      ((foreign ++ ss).map Statement.line ++ "" :: l :: rest))) :
    ∃ text, x.text = .ok text ∧ references text = ss := by
  have hready : ∀ s ∈ foreign ++ ss, s.Plain ∧ s.clause.Substantial := by
    intro s hs
    rcases List.mem_append.mp hs with hs | hs
    · exact ⟨(hforeign s hs).plain, (hforeign s hs).substantial⟩
    · exact ⟨(hss s hs).plain, (hss s hs).substantial⟩
  have hfilter : (foreign ++ ss).filter Statement.isLocal = ss := by
    have hnone : foreign.filter Statement.isLocal = [] := by
      rw [List.filter_eq_nil_iff]
      intro s hs
      simp [(hforeign s hs).isLocal]
    rw [List.filter_append, hnone, List.nil_append, List.filter_eq_self]
    exact fun s hs => (hss s hs).isLocal
  have hread := Source.references_finishChars (e := eol) hp hnames hready hl rest (b ≠ .model)
  rw [hfilter, List.cons_append] at hread
  exact ⟨_, hx.trans (finished_ok heol hb _), hread⟩

/-- A file that begins with statements refers to what those about files lead to. -/
theorem Job.Ready.refersTo (h : j.Ready eol) {b : Artifact} (hb : b ≠ .index) {x : Draft}
    (hdirectory : x.directory = j.layout.directory b) {names package l : String}
    (hnames : Source.Taken names package) {foreign : List Statement}
    (hforeign : ∀ s ∈ foreign, IsForeign s) {targets : List (Artifact × Entity)}
    (htargets : ∀ t ∈ targets, t.1 ∈ Layout.entityKinds ∧ t.2 ∈ j.entities)
    (hl : l.toList.head? ≠ some '\n') {rest : Lines}
    (hx : x.text = j.finished b ((Source.taken names package).line ::
      ((foreign ++ j.statementsTo b targets).map Statement.line ++ "" :: l :: rest))) :
    RefersTo j x .importing targets := by
  have hreference : ∀ s ∈ j.statementsTo b targets, IsReference s := by
    intro s hs
    obtain ⟨t, ht, rfl⟩ := List.mem_map.mp hs
    exact h.importable.isReference (isWay_importPrefix j.layout b t.1) (htargets t ht).1
      (htargets t ht).2
  obtain ⟨text, htext, hread⟩ :=
    references_of_lines h.platform h.eol hb hnames hforeign hreference hl hx
  refine ⟨text, htext, ?_⟩
  rw [hread, Job.statementsTo, List.forall₂_map_left_iff, List.forall₂_same, hdirectory]
  intro t ht
  exact h.leadsTo_statement (htargets t ht).1 (Layout.normalFrom_importPrefix j.layout b t.1)
    (htargets t ht).2

theorem isForeign_taken {names package : String} (h : Source.Taken names package)
    (hnames : ¬ Source.Blank names.toList) : IsForeign (Source.taken names package) :=
  ⟨h.plain, hnames, decide_eq_false h.foreign⟩

theorem refersTo_service (h : j.Ready eol) {e : Entity} (he : e ∈ j.entities) :
    RefersTo j (j.entityDraft .service e) .importing [(.model, e), (.dto, e)] := by
  obtain ⟨rest, hlines⟩ := Source.serviceLines_eq j.policy (j.layout.importPrefix .service .model)
    (j.layout.importPrefix .service .dto) e
  have hforeign : ∀ s ∈ [Source.taken "InjectRepository" "@nestjs/typeorm",
      Source.taken "DeepPartial,FindOptionsWhere,Repository" "typeorm"], IsForeign s := by
    intro s hs
    simp only [List.mem_cons, List.not_mem_nil, or_false] at hs
    rcases hs with rfl | rfl
    · exact isForeign_taken ⟨by decide, by decide, by decide⟩ (by decide)
    · exact isForeign_taken ⟨by decide, by decide, by decide⟩ (by decide)
  exact h.refersTo (by decide) rfl Source.Taken.injectable hforeign (by simp [he, Layout.entityKinds])
    (by decide) ((j.text_service e).trans (congrArg _ hlines))

theorem refersTo_controller (h : j.Ready eol) {e : Entity} (he : e ∈ j.entities) :
    RefersTo j (j.entityDraft .controller e) .importing [(.service, e), (.dto, e)] := by
  obtain ⟨decorator, rest, hhead, hlines⟩ := Source.controllerLines_eq j.policy
    (j.layout.importPrefix .controller .service) (j.layout.importPrefix .controller .dto) e
    e.oneToMany
  have hforeign : ∀ s ∈ ([] : List Statement), IsForeign s := fun _ hs => absurd hs List.not_mem_nil
  exact h.refersTo (by decide) rfl Source.Taken.controller hforeign
    (by simp [he, Layout.entityKinds]) hhead ((j.text_controller e).trans (congrArg _ hlines))

theorem refersTo_module (h : j.Ready eol) : RefersTo j (j.jointDraft .module) .importing
    (j.entities.flatMap fun e => [(.model, e), (.service, e), (.controller, e)]) := by
  obtain ⟨rest, hlines⟩ := Source.moduleLines_eq j.policy (j.layout.importPrefix .module .model)
    (j.layout.importPrefix .module .service) (j.layout.importPrefix .module .controller)
    (j.entities.map Job.mention) j.module
  have hforeign : ∀ s ∈ [Source.taken "TypeOrmModule" "@nestjs/typeorm"], IsForeign s := by
    intro s hs
    rw [List.mem_singleton.mp hs]
    exact isForeign_taken ⟨by decide, by decide, by decide⟩ (by decide)
  have htargets : ∀ t ∈ j.entities.flatMap fun e =>
      [(Artifact.model, e), (.service, e), (.controller, e)],
      t.1 ∈ Layout.entityKinds ∧ t.2 ∈ j.entities := by
    intro t ht
    obtain ⟨e, he, ht⟩ := List.mem_flatMap.mp ht
    simp only [List.mem_cons, List.not_mem_nil, or_false] at ht
    rcases ht with rfl | rfl | rfl
    · exact ⟨show Artifact.model ∈ Layout.entityKinds by decide, he⟩
    · exact ⟨show Artifact.service ∈ Layout.entityKinds by decide, he⟩
    · exact ⟨show Artifact.controller ∈ Layout.entityKinds by decide, he⟩
  -- the statements of the template are those about the three files of each entity
  have hstatements : j.statementsTo .module (j.entities.flatMap fun e =>
      [(Artifact.model, e), (.service, e), (.controller, e)]) =
      (j.entities.map Job.mention).flatMap (Source.mentionStatements j.policy
        (j.layout.importPrefix .module .model) (j.layout.importPrefix .module .service)
        (j.layout.importPrefix .module .controller)) := by
    unfold Job.statementsTo
    rw [List.map_flatMap, List.flatMap_map]
    rfl
  have htext : (j.jointDraft .module).text = j.finished .module
      ((Source.taken "Module" "@nestjs/common").line ::
        (([Source.taken "TypeOrmModule" "@nestjs/typeorm"] ++ j.statementsTo .module
          (j.entities.flatMap fun e => [(Artifact.model, e), (.service, e), (.controller, e)])).map
            Statement.line ++ "" :: "@Module(\x7b" :: rest)) := by
    rw [hstatements, j.text_module, hlines]
    rfl
  exact h.refersTo (b := .module) (by decide) rfl Source.Taken.module hforeign htargets (by decide)
    htext

theorem isReference_reexport {p : Naming.Policy} {m : Source.Mention}
    (hname : Quotable (p.entityBase m.name)) (hfile : Quotable (p.fileStem m.file)) :
    IsReference (.reexport p m) := by
  have hway : IsWay "." := by decide
  have hpath : Quotable ("." ++ ("/" ++ p.fileName .model m.file)) :=
    Quotable.append (by decide) (Quotable.append (by decide) (quotable_fileName (by decide) hfile))
  have htext : "./" ++ p.fileName .model m.file = "." ++ ("/" ++ p.fileName .model m.file) := by
    rw [← String.append_assoc]
    rfl
  cases hp : p.isDefaultExport with
  | false =>
      have hstatement : Statement.reexport p m =
          ⟨.everything, "." ++ ("/" ++ p.fileName .model m.file)⟩ := by
        simp [Statement.reexport, Clause.exporting, hp, htext]
      rw [hstatement]
      exact ⟨⟨fun n hn => absurd hn (by simp [Clause.symbol?]), hpath⟩, trivial,
        isLocal_of_way hway _⟩
  | true =>
      have hstatement : Statement.reexport p m =
          ⟨.defaultAs (p.modelName m.name), "." ++ ("/" ++ p.fileName .model m.file)⟩ := by
        simp [Statement.reexport, Clause.exporting, hp, htext]
      have hmodel : Quotable (p.modelName m.name) := hname.append (by decide)
      rw [hstatement]
      refine ⟨⟨fun n hn => ?_, hpath⟩, trivial, isLocal_of_way hway _⟩
      have hn' : some (p.modelName m.name) = some n := hn
      exact Option.some.inj hn' ▸ hmodel

/-- Statements are read back from their lines. -/
theorem references_of_statements {ss : List Statement} (h : ∀ s ∈ ss, IsReference s) (eol : Eol) :
    references (String.ofList (joinLines eol.sequence (ss.map Statement.line)).toList) = ss := by
  have hlines : ∀ l ∈ ss.map Statement.line, Text.OneLine l.toList := by
    intro l hl
    obtain ⟨s, hs, rfl⟩ := List.mem_map.mp hl
    exact Source.oneLine_line (h s hs).plain
  have hread := Source.linesOf_joinLines (e := eol) hlines []
  have hleading := Source.leading_append (fun s hs => (h s hs).plain)
    (Text.linesOf ([] : List Char))
  have hnone : Source.leading (Text.linesOf ([] : List Char)) = [] := rfl
  rw [hnone, List.append_nil] at hleading
  rw [List.append_nil, List.map_map] at hread
  unfold references Source.imports
  rw [String.toList_ofList, hread, Function.comp_def, hleading, List.filter_eq_self]
  exact fun s hs => (h s hs).isLocal

theorem refersTo_index (h : j.Ready eol) :
    RefersTo j (j.jointDraft .index) .exporting (j.entities.map fun e => (.model, e)) := by
  have hreference : ∀ s ∈ (j.entities.map Job.mention).map (Statement.reexport j.policy),
      IsReference s := by
    intro s hs
    obtain ⟨m, hm, rfl⟩ := List.mem_map.mp hs
    obtain ⟨e, he, rfl⟩ := List.mem_map.mp hm
    exact isReference_reexport (h.importable.names e he).quotable (h.importable.files e he).quotable
  have hlines : ∀ l ∈ ((j.entities.map Job.mention).map (Statement.reexport j.policy)).map
      Statement.line, Text.OneLine l.toList := by
    intro l hl
    obtain ⟨s, hs, rfl⟩ := List.mem_map.mp hl
    exact Source.oneLine_line (hreference s hs).plain
  -- the index is not pruned, so only its line endings change
  have htext : (j.jointDraft .index).text = .ok (String.ofList
      (joinLines eol.sequence (((j.entities.map Job.mention).map
        (Statement.reexport j.policy)).map Statement.line)).toList) := by
    have hend : Text.Apart j.platform (joinLines j.platform []).toList := fun _ => by
      simp [joinLines, Text.concat]
    have hrecast := Source.recast_joinLines (e := eol) h.platform hlines hend
    have hempty : recast eol j.platform (joinLines j.platform []).toList = [] := by
      unfold recast
      split <;> rfl
    rw [List.append_nil, hempty, List.append_nil] at hrecast
    rw [j.text_index, j.finished_eq h.eol, Source.indexLines_eq, Text.normalize_eq, hrecast]
    rfl
  refine ⟨_, htext, ?_⟩
  rw [references_of_statements hreference, List.map_map, List.forall₂_map_left_iff, List.forall₂_map_right_iff,
    List.forall₂_same]
  exact fun e he => h.leadsTo_reexport he

/-- **The files of a run refer to each other**, if its names can stand in statements and its files
    are called differently. -/
theorem Job.Ready.linked (h : j.Ready eol) : Linked j where
  services _ he := refersTo_service h he
  controllers _ he := refersTo_controller h he
  module := refersTo_module h
  index := refersTo_index h

theorem ready_jobOf {w : Workspace} {es : List Entity} {o : Options} (ho : o.Legal) (root : Path)
    (hplatform : IsLineEnding w.platform)
    (hnames : o.entityCase = .verbatim → ∀ e ∈ es, Naming.Importable e.name)
    (hfiles : o.fileCase = .verbatim → ∀ e ∈ es, Naming.Importable e.fileName)
    (hstems : (es.map fun e => (o.policy ho).fileStem e.fileName).Nodup) :
    (jobOf w es o ho root).Ready o.eol := by
  refine ⟨ho.extension.2, ⟨fun e he => ?_, fun e he => ?_⟩, hstems, hplatform, rfl⟩
  · exact Naming.convert_importable fun hs => hnames hs e he
  · exact Naming.convert_importable fun hs => hfiles hs e he

/-- **Every statement about a file of the run is right.** Where names are left as they are, they have
    to be such that statements can hold them; the files of entities have to be called differently. -/
theorem generate_linked {w : Workspace} {es : List Entity} {platform : String} {v : Value}
    {o : Options} (ho : Options.read platform v = .valid o) (hplatform : IsLineEnding w.platform)
    (hnames : o.entityCase = .verbatim → ∀ e ∈ es, Naming.Importable e.name)
    (hfiles : o.fileCase = .verbatim → ∀ e ∈ es, Naming.Importable e.fileName)
    {job : Job} (hjob : prepare w es o.settings = .ok job)
    (hstems : (es.map fun e => job.policy.fileStem e.fileName).Nodup) : Linked job := by
  have hlegal := Schema.legal_of_read ho
  obtain ⟨root, -, -, rfl⟩ := prepare_eq_ok hlegal hjob
  exact (ready_jobOf hlegal root hplatform hnames hfiles hstems).linked

/-- The run over two entities on an empty disk. -/
theorem linked_bareEntities : ∃ job,
    prepare (.ofDisk ⟨[]⟩) [bareEntity "user", bareEntity "post"] (Options.standard "\n").settings
      = .ok job ∧ Linked job := by
  have hjob := prepare_standard [bareEntity "user", bareEntity "post"]
  have hstems : (["user", "post"].map (Naming.CaseStyle.convert .pascal)).Nodup := by
    decide +kernel
  exact ⟨_, hjob, generate_linked (Schema.read_nil "\n") (.inl rfl) (by decide) (by decide) hjob
    hstems⟩

end Scaffold.Generation
