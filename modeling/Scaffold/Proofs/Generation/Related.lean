import Scaffold.Proofs.Generation.References

/-!
# `Scaffold.Proofs.Generation.Related` — which related entities a file imports

The models and data transfer objects of related entities are imported, each once. The names of the
related entities are told apart without regard to upper and lower case, though, so that of two
entities whose names differ in nothing else the second one is missing. An import is there exactly for
the first spelling (`generate_related`); what one schema lacks for that is shown at the end
(`exists_accepted_not_imported`).

## Contents
- **Spellings.** `FirstSpelling`, `mem_uniqueNames`, `nodup_uniqueFrom`, `mem_relatedNames`.
- **Imports.** `importsOf`, `ImportedOnce`, `Job.Closed`, `filter_relatedStatements`.
- **Models.** `Job.base`, `references_model`, `importsOf_model`, `importedOnce_model`.
- **Data transfer objects.** `references_dto`, `importsOf_dto`, `importedOnce_dto`.
- **Runs.** `RelatedImported`, `generate_related`.
- **Missing imports.** `teamDocument`, `exists_accepted_not_imported`.
-/

namespace Scaffold.Generation

open Disk (IsPart Path partsOf)
open Naming (Quotable)
open Schema (Accepted Entity Options Relation)
open Source (Statement references relatedNames uniqueFrom uniqueNames)
open Text (Eol IsLineEnding lower)

/-! ## Spellings -/

/-- A name is the first one of those that are spelled like it. -/
def FirstSpelling (names : List String) (n : String) : Prop :=
  names.find? (fun m => lower m = lower n) = some n

instance (names : List String) (n : String) : Decidable (FirstSpelling names n) := by
  unfold FirstSpelling
  infer_instance

theorem mem_uniqueFrom {seen names : List String} {n : String} :
    n ∈ uniqueFrom seen names ↔ lower n ∉ seen ∧ FirstSpelling names n := by
  unfold FirstSpelling
  fun_induction uniqueFrom seen names with
  | case1 => simp
  | case2 seen m names low hseen ih =>
      rw [List.contains_iff_mem] at hseen
      rw [ih, List.find?_cons]
      by_cases hm : lower m = lower n
      · have hn : lower n ∈ seen := hm ▸ hseen
        simp [hn]
      · simp [hm]
  | case3 seen m names low hseen ih =>
      rw [List.contains_iff_mem] at hseen
      rw [List.mem_cons, ih, List.find?_cons]
      by_cases hm : lower m = lower n
      · have hn : lower n ∉ seen := hm ▸ hseen
        have hlow : lower n ∈ low :: seen := hm ▸ List.mem_cons_self
        simp [hm, hn, hlow, eq_comm]
      · have hne : n ≠ m := fun he => hm (he ▸ rfl)
        have hlow : lower n ∉ low :: seen ↔ lower n ∉ seen := by
          rw [List.mem_cons, not_or]
          exact ⟨And.right, fun h => ⟨fun he => hm he.symm, h⟩⟩
        simp only [hne, false_or, hlow, hm, decide_false]

/-- **The first spelling of a name stays.** -/
theorem mem_uniqueNames {names : List String} {n : String} :
    n ∈ uniqueNames names ↔ FirstSpelling names n := by
  unfold uniqueNames
  rw [mem_uniqueFrom]
  simp

theorem nodup_uniqueFrom (seen names : List String) : (uniqueFrom seen names).Nodup := by
  fun_induction uniqueFrom seen names with
  | case1 => exact List.nodup_nil
  | case2 seen m names low hseen ih => exact ih
  | case3 seen m names low hseen ih =>
      refine List.nodup_cons.mpr ⟨fun hm => ?_, ih⟩
      exact (mem_uniqueFrom.mp hm).1 List.mem_cons_self

/-- The other entities that are referred to are those whose first spelling is referred to. -/
theorem mem_relatedNames {e : Entity} {n : String} :
    n ∈ relatedNames e ↔ FirstSpelling (e.relations.map Relation.related) n ∧ n ≠ e.name := by
  unfold relatedNames
  rw [List.mem_filter, mem_uniqueNames, decide_eq_true_eq]

theorem nodup_relatedNames (e : Entity) : (relatedNames e).Nodup :=
  (nodup_uniqueFrom [] _).filter _

theorem FirstSpelling.mem {names : List String} {n : String} (h : FirstSpelling names n) :
    n ∈ names := List.mem_of_find?_eq_some h

/-! ## Imports -/

/-- The statements about files that speak of a class. -/
def importsOf (text name : String) : List Statement :=
  (references text).filter fun s => s.clause.symbol? = some name

/-- **A class of an entity is imported once**, from the file of its kind that is made for the entity. -/
def ImportedOnce (j : Job) (directory : Path) (text : String) (a : Artifact) (e : Entity) : Prop :=
  ∃ name s, j.policy.className? a e.name = some name ∧ importsOf text name = [s] ∧
    LeadsTo j directory .importing s a e

variable {j : Job} {eol : Eol}

theorem fileFor_entityFiles (hnames : (j.entities.map Entity.name).Nodup) {e : Entity}
    (he : e ∈ j.entities) : Source.fileFor j.entityFiles e.name = e.fileName := by
  unfold Source.fileFor
  rw [(Job.lookup_entityFiles hnames).mpr ⟨e, he, rfl, rfl⟩]
  rfl

/-- What a run must fulfil beyond that so that its entities can refer to each other: their names and
    the names of their classes differ, and every name that is referred to is one of them. -/
structure Job.Closed (j : Job) : Prop where
  names : (j.entities.map Entity.name).Nodup
  classes : (j.entities.map fun e => j.policy.entityBase e.name).Nodup
  related : ∀ e ∈ j.entities, ∀ r ∈ e.relations, ∃ e' ∈ j.entities, e'.name = r.related

/-- The related entities as files see them: by a part of the relations. -/
theorem Job.Closed.exists_related (h : j.Closed) {e x : Entity} (he : e ∈ j.entities)
    (hx : x.relations ⊆ e.relations) : ∀ n ∈ relatedNames x, ∃ e' ∈ j.entities, e'.name = n := by
  intro n hn
  obtain ⟨r, hr, rfl⟩ := List.mem_map.mp (mem_relatedNames.mp hn).1.mem
  exact h.related e he r (hx hr)

/-- The name of a class of a kind. -/
theorem className?_eq {a : Artifact} {suffix : String} (ha : a.classSuffix? = some suffix)
    (base : String) : j.policy.className? a base = some (j.policy.entityBase base ++ suffix) := by
  unfold Naming.Policy.className?
  rw [ha]
  rfl

theorem Job.Closed.eq_of_class (h : j.Closed) {suffix : String} {e e' : Entity} (he : e ∈ j.entities)
    (he' : e' ∈ j.entities)
    (hclass : j.policy.entityBase e.name ++ suffix = j.policy.entityBase e'.name ++ suffix) :
    e = e' := by
  have hchars := congrArg String.toList hclass
  rw [String.toList_append, String.toList_append] at hchars
  have hbase := String.toList_injective (List.append_cancel_right hchars)
  exact List.inj_on_of_nodup_map h.classes he he' hbase

theorem symbol?_toClass (p : Naming.Policy) (symbol path : String) :
    (Statement.toClass p symbol path).clause.symbol? = some symbol := by
  unfold Statement.toClass
  cases p.isDefaultExport <;> rfl

/-- The statement about a related entity is the one that leads to its file. -/
theorem Job.Closed.toClass_related (h : j.Closed) {a : Artifact} {suffix : String}
    (ha : a.classSuffix? = some suffix) {e : Entity} (he : e ∈ j.entities) :
    Statement.toClass j.policy (j.policy.entityBase e.name ++ suffix)
      ("./" ++ j.policy.fileName a (Source.fileFor j.entityFiles e.name)) = j.statement "." a e := by
  unfold Job.statement
  rw [fileFor_entityFiles h.names he, className?_eq ha]
  rfl

/-- The statements about related entities are references. -/
theorem isReference_related (h : j.Ready eol) (hc : j.Closed) {a : Artifact} {suffix : String}
    (hkind : a ∈ Layout.entityKinds) (ha : a.classSuffix? = some suffix) {x : Entity}
    (hx : ∀ n ∈ relatedNames x, ∃ e ∈ j.entities, e.name = n) :
    ∀ s ∈ Source.relatedStatements j.policy j.entityFiles a
      (fun n => j.policy.entityBase n ++ suffix) x, IsReference s := by
  intro s hs
  obtain ⟨n, hn, rfl⟩ := List.mem_map.mp hs
  obtain ⟨e, he, rfl⟩ := hx n hn
  rw [hc.toClass_related ha he]
  exact h.importable.isReference (by decide) hkind he

/-- **Of the statements about related entities one speaks of an entity's class**, if the entity is
    among them. -/
theorem filter_relatedStatements (hc : j.Closed) {a : Artifact} {suffix : String}
    (ha : a.classSuffix? = some suffix) {x : Entity}
    (hx : ∀ n ∈ relatedNames x, ∃ e ∈ j.entities, e.name = n) {e : Entity} (he : e ∈ j.entities) :
    (Source.relatedStatements j.policy j.entityFiles a (fun n => j.policy.entityBase n ++ suffix)
      x).filter (fun s => s.clause.symbol? = some (j.policy.entityBase e.name ++ suffix)) =
      if e.name ∈ relatedNames x then [j.statement "." a e] else [] := by
  -- different entities have different classes, so the class tells the name
  have hnames : (relatedNames x).filter (fun n =>
      decide ((Statement.toClass j.policy (j.policy.entityBase n ++ suffix)
        ("./" ++ j.policy.fileName a (Source.fileFor j.entityFiles n))).clause.symbol? =
          some (j.policy.entityBase e.name ++ suffix))) =
      (relatedNames x).filter (· == e.name) := by
    refine List.filter_congr fun n hn => ?_
    obtain ⟨e', he', rfl⟩ := hx n hn
    rw [symbol?_toClass, Bool.eq_iff_iff, decide_eq_true_eq, beq_iff_eq, Option.some.injEq]
    constructor
    · intro hclass
      rw [hc.eq_of_class he' he hclass]
    · intro hname
      rw [hname]
  unfold Source.relatedStatements
  rw [List.filter_map, Function.comp_def, hnames, List.filter_beq]
  by_cases hmem : e.name ∈ relatedNames x
  · rw [if_pos hmem, List.count_eq_one_of_mem (nodup_relatedNames x) hmem]
    simp [hc.toClass_related ha he]
  · rw [if_neg hmem, List.count_eq_zero_of_not_mem hmem]
    rfl

theorem Job.Ready.leadsTo_related (h : j.Ready eol) {a : Artifact} (ha : a ∈ Layout.entityKinds)
    {e : Entity} (he : e ∈ j.entities) :
    LeadsTo j (j.layout.directory a) .importing (j.statement "." a e) a e := by
  refine h.leadsTo_statement ha ?_ he
  rw [show partsOf "." = [] from by decide]
  rfl

/-! ## Models -/

/-- The way from models to what all files share. -/
def Job.common (j : Job) : String :=
  Path.moduleFrom (j.layout.directory .model) (j.layout.root ++ [Layout.commonName])

/-- The statement that imports the base class of models. -/
def Job.base (j : Job) : Statement := Source.taken "BaseModel" (j.common ++ "/base.model")

theorem isWay_common (j : Job) : IsWay j.common := by
  unfold Job.common Path.moduleFrom Path.wayFrom
  rw [Layout.directory_eq, Disk.split_append]
  generalize j.layout.flat = flat
  cases flat <;> decide

theorem isReference_base (j : Job) : IsReference j.base := by
  have hpath : Quotable (j.common ++ "/base.model") := (isWay_common j).1.append (by decide)
  refine ⟨⟨fun n hn => ?_, hpath⟩, ?_, isLocal_of_way (isWay_common j) _⟩
  · have hn' : some "BaseModel" = some n := hn
    rw [← Option.some.inj hn']
    decide
  · exact (by decide : ¬ Source.Blank "BaseModel".toList)

/-- The base class of models is in none of the generated files. -/
theorem not_leadsTo_base (h : j.Ready eol) {directory : Path} (hdirectory : directory = j.layout.directory .model)
    {e : Entity} (he : e ∈ j.entities) : ¬ LeadsTo j directory .importing j.base .model e := by
  subst hdirectory
  intro hleads
  have hplace := hleads.place
  have hpart : IsPart ("base.model." ++ j.extension) ∧ "base.model." ++ j.extension ≠ ".." := by
    refine Disk.isPart_of_length ?_ ?_
    · rw [String.toList_append, List.mem_append, not_or]
      exact ⟨by decide, h.extended.not_mem rfl⟩
    · rw [String.toList_append, List.length_append]
      have hlen : 2 < "base.model.".toList.length := by decide
      omega
  have hpath : j.base.path ++ "." ++ j.extension = j.common ++ "/" ++ ("base.model." ++ j.extension) := by
    show j.common ++ "/base.model" ++ "." ++ j.extension = _
    simp only [String.append_assoc]
    rfl
  have hcommon : Path.normalFrom (j.layout.directory .model) (partsOf j.common) =
      j.layout.root ++ [Layout.commonName] := by
    refine Disk.normalFrom_moduleFrom ?_
    rw [Layout.directory_eq, Disk.split_append]
    generalize j.layout.flat = flat
    cases flat <;> decide
  rw [hpath, Disk.partsOf_slash, Disk.partsOf_part hpart.1, Disk.normalFrom_append, hcommon,
    Disk.normalFrom_names (by simpa using hpart.2),
    place_entityDraft h.extended (by decide) (h.importable.slashless e he), Layout.directory_eq,
    List.append_assoc, List.append_assoc] at hplace
  have hway := List.append_cancel_left hplace
  -- it lies in a directory of its own, at the same depth only if the layout is not flat
  unfold Layout.below at hway
  cases hflat : j.layout.flat with
  | true =>
      rw [hflat] at hway
      exact absurd (congrArg List.length hway) (by simp)
  | false =>
      rw [hflat] at hway
      exact absurd (List.cons.inj hway).1 (by decide)

/-- **What a model says about other files**: the base class, and the related entities. -/
theorem references_model (h : j.Ready eol) (hc : j.Closed) {e : Entity} (he : e ∈ j.entities)
    {text : String} (htext : (j.entityDraft .model e).text = .ok text) :
    references text = j.base ::
      Source.relatedStatements j.policy j.entityFiles .model j.policy.modelName e.forModel := by
  have hrelated := hc.exists_related he (x := e.forModel) (List.Subset.refl _)
  obtain ⟨ls, hls, hfinished⟩ := exists_lines_of_model htext
  obtain ⟨indices, decorator, rest, hindices, hdecorator, rfl⟩ := Source.modelLines_eq j.policy hls
  have hstatements : ∀ s ∈ Source.modelStatements j.policy j.common j.entityFiles e.forModel,
      IsReference s := by
    intro s hs
    rcases List.mem_cons.mp hs with rfl | hs
    · exact isReference_base j
    · exact isReference_related h hc (a := .model) (by decide) rfl hrelated s hs
  -- the first line behind the imports is the decorator of an index or of the class
  have hlines : ∃ l rest', l.toList.head? ≠ some '\n' ∧
      indices ++ (decorator ++ ")") :: Source.headLine j.policy .model
        (j.policy.modelName e.forModel.name) :: rest = l :: rest' := by
    cases indices with
    | nil =>
        refine ⟨_, _, ?_, rfl⟩
        rw [String.toList_append, List.head?_append, hdecorator]
        decide
    | cons i indices =>
        refine ⟨i, _, ?_, rfl⟩
        rw [hindices i List.mem_cons_self]
        decide
  obtain ⟨l, rest', hl, hrest⟩ := hlines
  have hnone : ∀ s ∈ ([] : List Statement), IsForeign s := fun _ hs => absurd hs List.not_mem_nil
  have hx : (j.entityDraft .model e).text = j.finished .model
      ((Source.taken Source.modelNames "typeorm").line ::
        (([] ++ Source.modelStatements j.policy j.common j.entityFiles e.forModel).map
          Statement.line ++ "" :: l :: rest')) := by
    rw [htext, ← hfinished, hrest]
    rfl
  obtain ⟨text', htext', hread⟩ := references_of_lines h.platform h.eol (by decide)
    Source.Taken.model hnone hstatements hl hx
  obtain rfl := Except.ok.inj (htext.symm.trans htext')
  exact hread

theorem importsOf_model (h : j.Ready eol) (hc : j.Closed) {e : Entity} (he : e ∈ j.entities)
    {text : String} (htext : (j.entityDraft .model e).text = .ok text) {e' : Entity}
    (he' : e' ∈ j.entities) :
    importsOf text (j.policy.modelName e'.name) =
      (if j.policy.modelName e'.name = "BaseModel" then [j.base] else []) ++
        (if e'.name ∈ relatedNames e then [j.statement "." .model e'] else []) := by
  have hrelated := hc.exists_related he (x := e.forModel) (List.Subset.refl _)
  have hown : (Source.relatedStatements j.policy j.entityFiles .model j.policy.modelName
      e.forModel).filter (fun s => s.clause.symbol? = some (j.policy.modelName e'.name)) =
      if e'.name ∈ relatedNames e then [j.statement "." .model e'] else [] :=
    filter_relatedStatements hc (a := .model) rfl hrelated he'
  have hsymbol : j.base.clause.symbol? = some "BaseModel" := rfl
  unfold importsOf
  rw [references_model h hc he htext, List.filter_cons, hsymbol, hown]
  by_cases hname : j.policy.modelName e'.name = "BaseModel"
  · rw [if_pos (by simp [hname]), if_pos hname]
    rfl
  · rw [if_neg (by simpa using Ne.symm hname), if_neg hname]
    rfl

/-- **A model imports a related entity once** exactly if its name is the first one so spelled, and its
    class is not called as the base class. -/
theorem importedOnce_model (h : j.Ready eol) (hc : j.Closed) {e : Entity} (he : e ∈ j.entities)
    {text : String} (htext : (j.entityDraft .model e).text = .ok text) {e' : Entity}
    (he' : e' ∈ j.entities) (hne : e'.name ≠ e.name) :
    ImportedOnce j (j.layout.directory .model) text .model e' ↔
      FirstSpelling (e.relations.map Relation.related) e'.name ∧
        j.policy.modelName e'.name ≠ "BaseModel" := by
  have himports := importsOf_model h hc he htext he'
  have hmem : e'.name ∈ relatedNames e ↔
      FirstSpelling (e.relations.map Relation.related) e'.name := by
    rw [mem_relatedNames]
    exact and_iff_left hne
  rw [← hmem]
  constructor
  · rintro ⟨name, s, hname, hs, hleads⟩
    obtain rfl := Option.some.inj (hname.symm.trans (className?_eq rfl e'.name))
    rw [show j.policy.entityBase e'.name ++ "Model" = j.policy.modelName e'.name from rfl,
      himports] at hs
    by_cases hbase : j.policy.modelName e'.name = "BaseModel"
    · -- the only import is that of the base class, which leads elsewhere
      exfalso
      rw [if_pos hbase] at hs
      obtain ⟨rfl, -⟩ := List.cons.inj hs
      exact not_leadsTo_base h rfl he' hleads
    · refine ⟨?_, hbase⟩
      by_contra hnot
      rw [if_neg hbase, if_neg hnot] at hs
      exact absurd hs (by simp)
  · rintro ⟨hrelated, hbase⟩
    rw [if_neg hbase, if_pos hrelated] at himports
    exact ⟨_, _, className?_eq rfl e'.name, himports, h.leadsTo_related (by decide) he'⟩

/-! ## Data transfer objects -/

/-- **What a data transfer object says about other files**: the entities that it holds many of. -/
theorem references_dto (h : j.Ready eol) (hc : j.Closed) {e : Entity} (he : e ∈ j.entities)
    {text : String} (htext : (j.entityDraft .dto e).text = .ok text) :
    references text =
      Source.relatedStatements j.policy j.entityFiles .dto j.policy.dtoName e.forDto := by
  have hrelated := hc.exists_related he (x := e.forDto) (List.filter_sublist).subset
  obtain ⟨rest, hlines⟩ := Source.dtoLines_eq j.policy j.entityFiles e.forDto
  have hstatements := isReference_related h hc (a := .dto) (by decide) rfl hrelated
  have hnone : ∀ s ∈ ([] : List Statement), IsForeign s := fun _ hs => absurd hs List.not_mem_nil
  have hstanding := Source.standing_headLine j.policy (a := .dto) (by decide) rfl
    (h.importable.names e he).quotable
  obtain ⟨text', htext', hread⟩ := references_of_lines h.platform h.eol (by decide)
    Source.Taken.dto hnone hstatements (Source.OneLine.head?_ne hstanding.oneLine)
    ((j.text_dto e).trans (congrArg _ hlines))
  obtain rfl := Except.ok.inj (htext.symm.trans htext')
  exact hread

theorem importsOf_dto (h : j.Ready eol) (hc : j.Closed) {e : Entity} (he : e ∈ j.entities)
    {text : String} (htext : (j.entityDraft .dto e).text = .ok text) {e' : Entity}
    (he' : e' ∈ j.entities) :
    importsOf text (j.policy.dtoName e'.name) =
      if e'.name ∈ relatedNames e.forDto then [j.statement "." .dto e'] else [] := by
  have hrelated := hc.exists_related he (x := e.forDto) (List.filter_sublist).subset
  unfold importsOf
  rw [references_dto h hc he htext]
  exact filter_relatedStatements hc (a := .dto) rfl hrelated he'

/-- **A data transfer object imports a related entity once** exactly if its name is the first one so
    spelled. -/
theorem importedOnce_dto (h : j.Ready eol) (hc : j.Closed) {e : Entity} (he : e ∈ j.entities)
    {text : String} (htext : (j.entityDraft .dto e).text = .ok text) {e' : Entity}
    (he' : e' ∈ j.entities) (hne : e'.name ≠ e.name) :
    ImportedOnce j (j.layout.directory .dto) text .dto e' ↔
      FirstSpelling (e.oneToMany.map Relation.related) e'.name := by
  have himports := importsOf_dto h hc he htext he'
  have hmem : e'.name ∈ relatedNames e.forDto ↔
      FirstSpelling (e.oneToMany.map Relation.related) e'.name := by
    rw [mem_relatedNames]
    exact and_iff_left hne
  rw [← hmem]
  constructor
  · rintro ⟨name, s, hname, hs, -⟩
    obtain rfl := Option.some.inj (hname.symm.trans (className?_eq rfl e'.name))
    by_contra hnot
    rw [if_neg hnot] at himports
    rw [show j.policy.entityBase e'.name ++ "Dto" = j.policy.dtoName e'.name from rfl,
      himports] at hs
    exact absurd hs (by simp)
  · intro hrelated
    rw [if_pos hrelated] at himports
    exact ⟨_, _, className?_eq rfl e'.name, himports, h.leadsTo_related (by decide) he'⟩

/-! ## Runs -/

/-- **What the files of an entity import of another one.** Both import it once exactly if its name is
    the first one of those they refer to that are spelled like it; a model cannot import two classes of
    the name of its base class. -/
structure RelatedImported (j : Job) (e e' : Entity) : Prop where
  model : ∀ text, (j.entityDraft .model e).text = .ok text →
    (ImportedOnce j (j.layout.directory .model) text .model e' ↔
      FirstSpelling (e.relations.map Relation.related) e'.name ∧
        j.policy.modelName e'.name ≠ "BaseModel")
  dto : ∀ text, (j.entityDraft .dto e).text = .ok text →
    (ImportedOnce j (j.layout.directory .dto) text .dto e' ↔
      FirstSpelling (e.oneToMany.map Relation.related) e'.name)
  /-- The data transfer object always has a text, and of JSON values so does the model. -/
  rendered : (∃ text, (j.entityDraft .dto e).text = .ok text) ∧
    (JsonValued e → ∃ text, (j.entityDraft .model e).text = .ok text)

/-- **Which related entities are imported.** The entities are those of a document, and every name that
    they refer to is one of theirs; their classes and files are called differently. -/
theorem generate_related {w : Workspace} {es : List Entity} (hes : Accepted es) {platform : String}
    {v : Value} {o : Options} (ho : Options.read platform v = .valid o)
    (hplatform : IsLineEnding w.platform)
    (hnames : o.entityCase = .verbatim → ∀ e ∈ es, Naming.Importable e.name)
    (hfiles : o.fileCase = .verbatim → ∀ e ∈ es, Naming.Importable e.fileName)
    {job : Job} (hjob : prepare w es o.settings = .ok job)
    (hclosed : ∀ e ∈ es, ∀ r ∈ e.relations, ∃ e' ∈ es, e'.name = r.related)
    (hclasses : (es.map fun e => job.policy.entityBase e.name).Nodup)
    (hstems : (es.map fun e => job.policy.fileStem e.fileName).Nodup) :
    ∀ e ∈ es, ∀ r ∈ e.relations, r.related ≠ e.name →
      ∃ e' ∈ es, e'.name = r.related ∧ RelatedImported job e e' := by
  have hlegal := Schema.legal_of_read ho
  obtain ⟨root, -, -, rfl⟩ := prepare_eq_ok hlegal hjob
  have hready := ready_jobOf hlegal root hplatform hnames hfiles hstems
  have hclosed' : (jobOf w es o hlegal root).Closed :=
    ⟨Schema.nodup_of_accepted hes, hclasses, hclosed⟩
  intro e he r hr hne
  obtain ⟨e', he', hname⟩ := hclosed e he r hr
  rw [← hname] at hne
  exact ⟨e', he', hname, fun _ htext => importedOnce_model hready hclosed' he htext he' hne,
    fun _ htext => importedOnce_dto hready hclosed' he htext he' hne,
    exists_text_dto rfl e, exists_text_model rfl⟩

/-! ## Missing imports -/

/-- The relation to many entities of a name. -/
def bareRelation (name : String) : Relation := ⟨.oneToMany, name, name, none, none, none, []⟩

/-- An entity that refers to others. -/
def team (names : List String) : Entity :=
  { bareEntity "team" with relations := names.map bareRelation }

/-- Entities, and one that refers to all of them. -/
def teamEntities (names : List String) : List Entity := names.map bareEntity ++ [team names]

/-- The document with these entities. -/
def teamDocument (names : List String) : Entries :=
  [(.text "entities", .list (names.map (fun n => .map [(.text "tscName", .text n)]) ++
    [.map [(.text "tscName", .text "team"), (.text "relations", .list (names.map fun n =>
      .map [(.text "relationType", .text "OneToMany"), (.text "relatedTable", .text n),
        (.text "fieldName", .text n)]))]]))]

/-- The job of a run over these entities on an empty disk. -/
def teamJob (names : List String) : Job :=
  jobOf (.ofDisk ⟨[]⟩) (teamEntities names) (Options.standard "\n") (Schema.legal_standard "\n")
    ["output"]

theorem prepare_team (names : List String) :
    prepare (.ofDisk ⟨[]⟩) (teamEntities names) (Options.standard "\n").settings =
      .ok (teamJob names) := prepare_standard (teamEntities names)

theorem closed_team (names : List String) : ∀ e ∈ teamEntities names, ∀ r ∈ e.relations,
    ∃ e' ∈ teamEntities names, e'.name = r.related := by
  intro e he r hr
  rcases List.mem_append.mp he with he | he
  · obtain ⟨n, _, rfl⟩ := List.mem_map.mp he
    exact absurd hr List.not_mem_nil
  · rw [List.mem_singleton.mp he] at hr
    obtain ⟨n, hn, rfl⟩ := List.mem_map.mp hr
    exact ⟨bareEntity n, List.mem_append_left _ (List.mem_map_of_mem hn), rfl⟩

theorem jsonValued_team (names : List String) : JsonValued (team names) where
  columns _ h := absurd h List.not_mem_nil
  relations r hr := by
    obtain ⟨n, _, rfl⟩ := List.mem_map.mp hr
    exact (⟨⟨by decide, by decide⟩, by decide⟩ : Json.IsJson Json.writeLimit (.map []))
  indices _ h := absurd h List.not_mem_nil

theorem readDocument_team : (Schema.readDocument "\n" (teamDocument ["user"])).result =
    .ok (teamEntities ["user"], Options.standard "\n") := by
  have hnames : Schema.repeated ((teamEntities ["user"]).map Entity.name) = [] := by
    decide +kernel
  exact Schema.readDocument_of_combine hnames (Schema.read_nil "\n") rfl

theorem accepted_team : Accepted (teamEntities ["user"]) := ⟨"\n", _, _, readDocument_team⟩

/-- The run over a user and a team that refers to it. -/
theorem related_team : ∃ e' ∈ teamEntities ["user"], e'.name = "user" ∧
    RelatedImported (teamJob ["user"]) (team ["user"]) e' := by
  have hcased : (["user", "team"].map (Naming.CaseStyle.convert .pascal)).Nodup := by
    decide +kernel
  exact generate_related accepted_team (Schema.read_nil "\n") (.inl rfl) (by decide) (by decide)
    (prepare_team ["user"]) (closed_team ["user"]) hcased hcased (team ["user"])
    (List.mem_append_right _ List.mem_cons_self) (bareRelation "user") List.mem_cons_self (by decide)

/-- **An accepted document can lack imports.** Of two entities whose names differ only in upper and
    lower case neither the model nor the data transfer object of a third one imports the second. -/
theorem exists_accepted_not_imported : ∃ (w : Workspace) (doc : Entries) (es : List Entity)
    (o : Options) (job : Job) (e e' : Entity) (model dto : String),
    (Schema.readDocument w.platform doc).result = .ok (es, o) ∧
      prepare w es o.settings = .ok job ∧
      (∀ e ∈ es, ∀ r ∈ e.relations, ∃ e' ∈ es, e'.name = r.related) ∧
      (es.map fun e => job.policy.entityBase e.name).Nodup ∧
      (es.map fun e => job.policy.fileStem e.fileName).Nodup ∧
      e ∈ es ∧ e' ∈ es ∧ e'.name ≠ e.name ∧ e'.name ∈ e.oneToMany.map Relation.related ∧
      (job.entityDraft .model e).text = .ok model ∧
      importsOf model (job.policy.modelName e'.name) = [] ∧
      (job.entityDraft .dto e).text = .ok dto ∧
      importsOf dto (job.policy.dtoName e'.name) = [] := by
  have hnames : Schema.repeated ((teamEntities ["userA", "usera"]).map Entity.name) = [] := by
    decide +kernel
  have hdoc : (Schema.readDocument "\n" (teamDocument ["userA", "usera"])).result =
      .ok (teamEntities ["userA", "usera"], Options.standard "\n") :=
    Schema.readDocument_of_combine hnames (Schema.read_nil "\n") rfl
  have hcased : (["userA", "usera", "team"].map (Naming.CaseStyle.convert .pascal)).Nodup := by
    decide +kernel
  have hready : (teamJob ["userA", "usera"]).Ready .lf :=
    ready_jobOf (Schema.legal_standard "\n") ["output"] (.inl rfl) (by decide) (by decide) hcased
  have hclosed : (teamJob ["userA", "usera"]).Closed :=
    ⟨(by decide : ["userA", "usera", "team"].Nodup), hcased, closed_team ["userA", "usera"]⟩
  have hteam : team ["userA", "usera"] ∈ (teamJob ["userA", "usera"]).entities :=
    List.mem_append_right _ List.mem_cons_self
  have husera : bareEntity "usera" ∈ (teamJob ["userA", "usera"]).entities :=
    List.mem_append_left _ (List.mem_map_of_mem (by decide))
  obtain ⟨model, hmodel⟩ := exists_text_model hready.eol (jsonValued_team ["userA", "usera"])
  obtain ⟨dto, hdto⟩ := exists_text_dto hready.eol (team ["userA", "usera"])
  -- "userA" is spelled like "usera" and stands before it
  have hdropped : (bareEntity "usera").name ∉ relatedNames (team ["userA", "usera"]) := by
    decide +kernel
  have hdropped' : (bareEntity "usera").name ∉ relatedNames (team ["userA", "usera"]).forDto := by
    decide +kernel
  have hmodels := importsOf_model hready hclosed hteam hmodel husera
  have hdtos := importsOf_dto hready hclosed hteam hdto husera
  have hbase : (teamJob ["userA", "usera"]).policy.modelName (bareEntity "usera").name ≠
      "BaseModel" := by
    decide +kernel
  rw [if_neg hbase, if_neg hdropped] at hmodels
  rw [if_neg hdropped'] at hdtos
  exact ⟨.ofDisk ⟨[]⟩, teamDocument ["userA", "usera"], teamEntities ["userA", "usera"],
    Options.standard "\n", teamJob ["userA", "usera"], team ["userA", "usera"], bareEntity "usera",
    model, dto, hdoc, prepare_team ["userA", "usera"], closed_team ["userA", "usera"], hcased, hcased,
    hteam, husera, by decide, by decide, hmodel, hmodels, hdto, hdtos⟩

end Scaffold.Generation
