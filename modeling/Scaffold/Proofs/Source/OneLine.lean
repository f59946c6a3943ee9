import Scaffold.Proofs.Json.OneLine
import Scaffold.Proofs.Naming.Converted
import Scaffold.Proofs.Source.Parts
import Scaffold.Source.Template

/-!
# `Scaffold.Proofs.Source.OneLine` — the lines of files hold no line breaks

Files are lists of lines, into which names and types are put as they are. If none of those breaks a
line (`Entity.Unbroken`), no line of a file holds a break. Options and defaults need no such care: they
are written so that breaks are escaped.

## Contents
- **Entities.** `Column.Unbroken`, `Relation.Unbroken`, `Index.Unbroken`, `Entity.Unbroken`.
- **Names.** `isLine_convert`, `isLine_className`, `isLine_fileName`, `isLine_localImport`.
- **Pieces.** `isLine_importLine`, `isLine_bracketed`, `isLine_relatedImports`.
- **Services and controllers.** `isLine_serviceLines`, `isLine_controllerLines`.
- **Data transfer objects.** `isLine_dtoLines`.
- **Models.** `isLine_optionsArgument`, `isLine_columnLines`, `isLine_relationLines`,
  `isLine_modelLines`.
- **Files for all entities.** `isLine_moduleLines`, `isLine_indexLines`, `isLine_projectLines`.
-/

namespace Scaffold

open Text (IsLine isLine_append isLine_ite isLine_ofList toString_text)

/-! ## Entities -/

namespace Schema

/-- No text of a join column breaks a line. -/
structure JoinColumn.Unbroken (j : JoinColumn) : Prop where
  name : IsLine j.name
  referenced : ∀ s ∈ j.referenced, IsLine s

/-- No text of a join table breaks a line. -/
structure JoinTable.Unbroken (t : JoinTable) : Prop where
  name : IsLine t.name
  joinColumns : ∀ j ∈ t.joinColumns, j.Unbroken
  inverseColumns : ∀ j ∈ t.inverseColumns, j.Unbroken

/-- No text of a column breaks a line, its default and its options apart. -/
structure Column.Unbroken (c : Column) : Prop where
  name : IsLine c.name
  type : IsLine c.type
  dbType : IsLine c.dbType

/-- No text of a relation breaks a line, its options apart. -/
structure Relation.Unbroken (r : Relation) : Prop where
  related : IsLine r.related
  field : IsLine r.field
  inverse : ∀ s ∈ r.inverse, IsLine s
  joinColumns : ∀ js ∈ r.joinColumns, ∀ j ∈ js, j.Unbroken
  joinTable : ∀ t ∈ r.joinTable, t.Unbroken

/-- No text of an index breaks a line, its options apart. -/
structure Index.Unbroken (i : Index) : Prop where
  name : IsLine i.name
  columns : ∀ c ∈ i.columns, IsLine c

/-- No text of an entity breaks a line, defaults and options apart. -/
structure Entity.Unbroken (e : Entity) : Prop where
  name : IsLine e.name
  fileName : IsLine e.fileName
  table : IsLine e.table
  database : ∀ s ∈ e.database, IsLine s
  schema : ∀ s ∈ e.schema, IsLine s
  columns : ∀ c ∈ e.columns, c.Unbroken
  relations : ∀ r ∈ e.relations, r.Unbroken
  indices : ∀ i ∈ e.indices, i.Unbroken

end Schema

/-! ## Names -/

namespace Naming

theorem Quotable.isLine {s : String} (h : Quotable s) : IsLine s := by
  refine fun c hc => ⟨?_, ?_⟩
  · rintro rfl
    exact h '\n' hc (by decide)
  · rintro rfl
    exact h '\r' hc (by decide)

/-- **A converted name is on one line**, unless it was left as it is and was not before. -/
theorem isLine_convert {s : CaseStyle} {name : String} (h : s = .verbatim → IsLine name) :
    IsLine (s.convert name) := by
  refine forall_mem_convert (fun c hchar => ?_) h
  constructor <;> rintro rfl <;> exact absurd hchar (by decide)

namespace Policy

variable (p : Policy)

theorem isLine_visibilityWord : IsLine p.visibilityWord := by
  unfold visibilityWord
  generalize p.visibility = v
  cases v <;> decide +kernel

theorem isLine_strictMark : IsLine p.strictMark := by
  unfold strictMark
  generalize p.strictness = m
  cases m <;> decide +kernel

theorem isLine_className {base name : String} (h : p.entityCase = .verbatim → IsLine base) (a : Artifact)
    (hname : p.className? a base = some name) : IsLine name := by
  obtain ⟨suffix, hsuffix, rfl⟩ := Option.map_eq_some_iff.mp hname
  have hall : ∀ t ∈ a.classSuffix?, IsLine t := by cases a <;> decide +kernel
  exact isLine_append.mpr ⟨isLine_convert h, hall suffix hsuffix⟩

variable {base : String} (h : IsLine base)
include h

theorem isLine_propertyName : IsLine (p.propertyName base) := isLine_convert fun _ => h

theorem isLine_fileName (a : Artifact) : IsLine (p.fileName a base) := by
  have hindex : IsLine "index" := isLine_ofList (by decide)
  have hsuffix : IsLine a.fileSuffix := by cases a <;> decide +kernel
  have hstem : IsLine (p.fileStem base ++ a.fileSuffix) :=
    isLine_append.mpr ⟨isLine_convert fun _ => h, hsuffix⟩
  cases a with
  | index => exact isLine_convert fun _ => hindex
  | module => exact isLine_append.mpr ⟨h, hsuffix⟩
  | model | dto | service | controller => exact hstem

theorem isLine_localImport : IsLine (p.localImport base) := by
  unfold localImport
  split
  · exact h
  · exact isLine_append.mpr ⟨isLine_append.mpr ⟨isLine_ofList (by decide), h⟩,
      isLine_ofList (by decide)⟩

theorem isLine_relationType (c : Schema.Cardinality) : IsLine (p.relationType base c) := by
  have hmany : IsLine (if c.isToMany then base ++ "[]" else base) :=
    isLine_ite (isLine_append.mpr ⟨h, isLine_ofList (by decide)⟩) h
  unfold relationType
  exact isLine_ite (isLine_append.mpr ⟨isLine_append.mpr ⟨isLine_ofList (by decide), hmany⟩,
    isLine_ofList (by decide)⟩) hmany

end Policy

end Naming

namespace Source

open Naming (Policy)
open Schema (Column Entity Index JoinColumn JoinTable Relation)

/-! ## Pieces -/

theorem isLine_importLine {clause path : String} (hclause : IsLine clause) (hpath : IsLine path) :
    IsLine (importLine clause path) := by
  simp only [importLine, isLine_append, toString_text, hclause, hpath, and_true]
  and_intros <;> exact isLine_ofList (by decide)

theorem isLine_braced {s : String} (h : IsLine s) : IsLine (braced s) :=
  isLine_append.mpr ⟨isLine_append.mpr ⟨isLine_ofList (by decide), h⟩, isLine_ofList (by decide)⟩

theorem isLine_inQuotes {s : String} (h : IsLine s) : IsLine (inQuotes s) :=
  isLine_append.mpr ⟨isLine_append.mpr ⟨isLine_ofList (by decide), h⟩, isLine_ofList (by decide)⟩

theorem isLine_bracketed {items : List String} (h : ∀ s ∈ items, IsLine s) :
    IsLine (bracketed items) :=
  isLine_append.mpr ⟨isLine_append.mpr ⟨isLine_ofList (by decide),
    Text.IsLine.joinWith (isLine_ofList (by decide)) h⟩, isLine_ofList (by decide)⟩

variable (p : Policy)

theorem isLine_classHead {name : String} (h : IsLine name) : IsLine (classHead p name) := by
  simp only [classHead, isLine_append, h, and_true]
  refine ⟨⟨isLine_ofList (by decide), ?_⟩, isLine_ofList (by decide)⟩
  exact isLine_ite (isLine_ofList (by decide)) (isLine_ofList (by decide))

theorem uniqueFrom_subset (seen names : List String) : uniqueFrom seen names ⊆ names := by
  induction names generalizing seen with
  | nil => exact List.Subset.refl _
  | cons s r ih =>
      rw [uniqueFrom]
      split
      · exact List.subset_cons_of_subset _ (ih _)
      · exact List.cons_subset_cons _ (ih _)

theorem exists_of_mem_relatedNames {e : Entity} {n : String} (h : n ∈ relatedNames e) :
    ∃ r ∈ e.relations, r.related = n :=
  List.mem_map.mp (uniqueFrom_subset _ _ (List.mem_filter.mp h).1)

/-- What files are called after is on one line. -/
def EntityFiles.Unbroken (files : EntityFiles) : Prop := ∀ x ∈ files, IsLine x.2

/-- The files of an entity are called after what the table says, or after the entity itself. -/
theorem fileFor_cases (files : EntityFiles) (name : String) :
    fileFor files name = name ∨ ∃ x ∈ files, fileFor files name = x.2 := by
  unfold fileFor
  cases hlookup : files.lookup name with
  | none => exact .inl rfl
  | some file =>
      obtain ⟨a, b, hab⟩ := List.lookup_eq_some_iff.mp hlookup
      exact .inr ⟨(name, file), by simp [hab], rfl⟩

theorem isLine_fileFor {files : EntityFiles} (hfiles : EntityFiles.Unbroken files) {name : String}
    (h : IsLine name) : IsLine (fileFor files name) := by
  rcases fileFor_cases files name with hname | ⟨x, hx, hfile⟩
  · rwa [hname]
  · exact hfile ▸ hfiles x hx

theorem isLine_relatedImports {files : EntityFiles} (hfiles : EntityFiles.Unbroken files) (a : Artifact)
    {className : String → String} (hclass : ∀ n, IsLine n → IsLine (className n)) {e : Entity}
    (he : ∀ r ∈ e.relations, r.Unbroken) :
    ∀ l ∈ relatedImports p files a className e, IsLine l := by
  intro l hl
  obtain ⟨n, hn, rfl⟩ := List.mem_map.mp hl
  obtain ⟨r, hr, rfl⟩ := exists_of_mem_relatedNames hn
  have hname := (he r hr).related
  refine isLine_importLine (p.isLine_localImport (hclass _ hname)) (isLine_append.mpr ⟨?_, ?_⟩)
  · exact isLine_ofList (by decide)
  · exact p.isLine_fileName (isLine_fileFor hfiles hname) a

/-! ## Services and controllers -/

/-- **No line of a service holds a break.** -/
theorem isLine_serviceLines {models dtos : String} (hmodels : IsLine models) (hdtos : IsLine dtos)
    {e : Entity} (he : e.Unbroken) : ∀ l ∈ serviceLines p models dtos e, IsLine l := by
  have hmodel : IsLine (p.modelName e.name) := p.isLine_className (fun _ => he.name) .model rfl
  have hdto : IsLine (p.dtoName e.name) := p.isLine_className (fun _ => he.name) .dto rfl
  have hservice : IsLine (p.serviceName e.name) := p.isLine_className (fun _ => he.name) .service rfl
  have hhead := isLine_classHead p hservice
  have hmodelImport := p.isLine_localImport hmodel
  have hdtoImport := p.isLine_localImport hdto
  have hmodelFile := p.isLine_fileName he.fileName .model
  have hdtoFile := p.isLine_fileName he.fileName .dto
  obtain ⟨hkey, htype⟩ : IsLine (serviceKey p e).1 ∧ IsLine (serviceKey p e).2 := by
    unfold serviceKey
    cases hcolumn : keyColumn? e with
    | none => exact ⟨isLine_ofList (by decide), isLine_ofList (by decide)⟩
    | some c =>
        have hc := he.columns c (List.mem_filter.mp (List.mem_of_mem_head? hcolumn)).1
        exact ⟨p.isLine_propertyName hc.name, hc.type⟩
  simp only [serviceLines, importLine, braced, isLine_append, toString_text, List.forall_mem_cons,
    hmodel, hdto, hhead, hmodelImport, hdtoImport, hmodelFile, hdtoFile, hmodels, hdtos, hkey, htype,
    and_true, true_and]
  and_intros <;> first | exact isLine_ofList (by decide) | exact List.forall_mem_nil _

theorem isLine_routeLines {key : String} (hkey : IsLine key) {r : Relation} (hr : r.Unbroken) :
    ∀ l ∈ routeLines p key r, IsLine l := by
  have hname := p.isLine_propertyName hr.field
  have hroute : IsLine (p.propertyName ("find_" ++ r.field)) :=
    p.isLine_propertyName (isLine_append.mpr ⟨isLine_ofList (by decide), hr.field⟩)
  simp only [routeLines, isLine_append, toString_text, List.forall_mem_cons, hname, hroute, hkey,
    and_true]
  and_intros <;> first | exact isLine_ofList (by decide) | exact List.forall_mem_nil _

/-- **No line of a controller holds a break.** -/
theorem isLine_controllerLines {services dtos : String} (hservices : IsLine services)
    (hdtos : IsLine dtos) {e : Entity} (he : e.Unbroken) {relations : List Relation}
    (hrelations : relations ⊆ e.relations) :
    ∀ l ∈ controllerLines p services dtos e relations, IsLine l := by
  have hservice : IsLine (p.serviceName e.name) := p.isLine_className (fun _ => he.name) .service rfl
  have hdto : IsLine (p.dtoName e.name) := p.isLine_className (fun _ => he.name) .dto rfl
  have hcontroller : IsLine (p.controllerName e.name) :=
    p.isLine_className (fun _ => he.name) .controller rfl
  have hhead := isLine_classHead p hcontroller
  have hserviceImport := p.isLine_localImport hservice
  have hdtoImport := p.isLine_localImport hdto
  have hserviceFile := p.isLine_fileName he.fileName .service
  have hdtoFile := p.isLine_fileName he.fileName .dto
  have htable := he.table
  have hkey : IsLine (controllerKey e) := by
    unfold controllerKey
    split
    · exact isLine_ite (isLine_ofList (by decide)) (isLine_ofList (by decide))
    · exact isLine_ofList (by decide)
  have hroutes : ∀ l ∈ relations.flatMap (routeLines p (controllerKey e)), IsLine l :=
    List.forall_mem_flatMap.mpr fun r hr => isLine_routeLines p hkey (he.relations r (hrelations hr))
  rw [controllerLines, List.forall_mem_append, List.forall_mem_append]
  refine ⟨⟨?_, hroutes⟩, ?_⟩
  · simp only [importLine, isLine_append, toString_text, List.forall_mem_cons, hservice, hhead,
      hserviceImport, hdtoImport, hserviceFile, hdtoFile, hservices, hdtos, htable, hkey, and_true,
      true_and]
    and_intros <;> first | exact isLine_ofList (by decide) | exact List.forall_mem_nil _
  · simp only [isLine_append, toString_text, List.forall_mem_cons, hdto, hkey, and_true]
    and_intros <;> first | exact isLine_ofList (by decide) | exact List.forall_mem_nil _

/-! ## Data transfer objects -/

theorem isLine_dtoColumnLines {c : Column} (hc : c.Unbroken) :
    ∀ l ∈ dtoColumnLines p c, IsLine l := by
  have hfront : IsLine ("    " ++ p.visibilityWord ++ p.propertyName c.name) :=
    isLine_append.mpr ⟨isLine_append.mpr ⟨isLine_ofList (by decide), p.isLine_visibilityWord⟩,
      p.isLine_propertyName hc.name⟩
  have hnull : IsLine (if c.nullable then " | null" else "") := by
    exact isLine_ite (isLine_ofList (by decide)) (isLine_ofList (by decide))
  have htype := hc.type
  have hmark := p.isLine_strictMark
  unfold dtoColumnLines
  simp only
  split
  · simp only [isLine_append, List.forall_mem_cons, hfront, hnull, htype, and_true, true_and]
    and_intros <;> first | exact isLine_ofList (by decide) | exact List.forall_mem_nil _
  · simp only [isLine_append, List.forall_mem_cons, hfront, hmark, htype, and_true, true_and]
    and_intros <;> first | exact isLine_ofList (by decide) | exact List.forall_mem_nil _

theorem isLine_dtoRelationLines {r : Relation} (hr : r.Unbroken) :
    ∀ l ∈ dtoRelationLines p r, IsLine l := by
  have htype : IsLine (p.dtoName r.related) := p.isLine_className (fun _ => hr.related) .dto rfl
  have hname := p.isLine_propertyName hr.field
  have hword := p.isLine_visibilityWord
  simp only [dtoRelationLines, braced, isLine_append, toString_text, List.forall_mem_cons, htype,
    hname, hword, and_true]
  and_intros <;> first | exact isLine_ofList (by decide) | exact List.forall_mem_nil _

/-- **No line of a data transfer object holds a break.** -/
theorem isLine_dtoLines {files : EntityFiles} (hfiles : EntityFiles.Unbroken files) {e : Entity}
    (he : e.Unbroken) : ∀ l ∈ dtoLines p files e, IsLine l := by
  have hclass : ∀ n, IsLine n → IsLine (p.dtoName n) := fun _ hn =>
    p.isLine_className (fun _ => hn) .dto rfl
  have himports := isLine_relatedImports p hfiles .dto hclass he.relations
  have hhead := isLine_classHead p (hclass _ he.name)
  have hcolumns : ∀ l ∈ e.columns.flatMap (dtoColumnLines p), IsLine l :=
    List.forall_mem_flatMap.mpr fun c hc => isLine_dtoColumnLines p (he.columns c hc)
  have hrelations : ∀ l ∈ e.relations.flatMap (dtoRelationLines p), IsLine l :=
    List.forall_mem_flatMap.mpr fun r hr => isLine_dtoRelationLines p (he.relations r hr)
  simp only [dtoLines, List.forall_mem_append, List.forall_mem_cons]
  refine ⟨⟨⟨⟨⟨⟨?_, List.forall_mem_nil _⟩, himports⟩, ⟨?_, ?_, List.forall_mem_nil _⟩⟩, hcolumns⟩,
    hrelations⟩, ?_, List.forall_mem_nil _⟩
  · exact isLine_importLine (isLine_ofList (by decide)) (isLine_ofList (by decide))
  · exact isLine_ofList (by decide)
  · exact isLine_append.mpr ⟨hhead, isLine_ofList (by decide)⟩
  · exact isLine_ofList (by decide)

/-! ## Models -/

/-- Options are on one line, whatever they hold. -/
theorem isLine_optionsArgument {options : Entries} {s : String} (h : optionsArgument options = .ok s) :
    IsLine s := by
  obtain ⟨-, rfl⟩ | ⟨-, o, ho, rfl⟩ := optionsArgument_eq_ok.mp h
  · exact isLine_ofList (by decide)
  · exact isLine_append.mpr
      ⟨isLine_ofList (by decide), isLine_braced (Naming.isLine_literal ho)⟩

theorem mem_of_filled {o : Option String} : ∀ s ∈ filled? o, s ∈ o := by
  cases o with
  | none => exact fun _ h => h
  | some t =>
      have hfilled : filled? (some t) = if t = "" then none else some t := rfl
      rw [hfilled]
      split
      · exact fun s hs => nomatch hs
      · exact fun _ h => h

theorem isLine_of_filled {o : Option String} (h : ∀ s ∈ o, IsLine s) : ∀ s ∈ filled? o, IsLine s :=
  fun s hs => h s (mem_of_filled s hs)

theorem isLine_indexLine {i : Index} (hi : i.Unbroken) {l : String} (h : indexLine p i = .ok l) :
    IsLine l := by
  obtain ⟨options, hoptions, rfl⟩ := Results.map_eq_ok.mp h
  have hname := hi.name
  have hargument := isLine_optionsArgument hoptions
  have hcolumns : IsLine (bracketed (i.columns.map fun c => inQuotes (p.propertyName c))) := by
    refine isLine_bracketed fun s hs => ?_
    obtain ⟨c, hc, rfl⟩ := List.mem_map.mp hs
    exact isLine_inQuotes (p.isLine_propertyName (hi.columns c hc))
  simp only [isLine_append, toString_text, hname, hargument, hcolumns, and_true]
  and_intros <;> exact isLine_ofList (by decide)

theorem isLine_entityLine {e : Entity} (he : e.Unbroken) : IsLine (entityLine e) := by
  have htable := he.table
  have hparts : ∀ s ∈ ((filled? e.schema).map fun s => s!"schema: \"{s}\"").toList ++
      ((filled? e.database).map fun d => s!"database: \"{d}\"").toList, IsLine s := by
    intro s hs
    rcases List.mem_append.mp hs with hs | hs
    · obtain ⟨t, ht, rfl⟩ := Option.map_eq_some_iff.mp (Option.mem_toList.mp hs)
      have hline := isLine_of_filled he.schema t ht
      simp only [isLine_append, toString_text, hline, and_true]
      and_intros <;> exact isLine_ofList (by decide)
    · obtain ⟨t, ht, rfl⟩ := Option.map_eq_some_iff.mp (Option.mem_toList.mp hs)
      have hline := isLine_of_filled he.database t ht
      simp only [isLine_append, toString_text, hline, and_true]
      and_intros <;> exact isLine_ofList (by decide)
  have hjoined := isLine_braced (Text.IsLine.joinWith (isLine_ofList (by decide) : IsLine ", ") hparts)
  simp only [entityLine, isLine_append, toString_text, htable, and_true]
  refine ⟨⟨⟨isLine_ofList (by decide), isLine_ofList (by decide)⟩, ?_⟩, isLine_ofList (by decide)⟩
  split
  · exact isLine_ofList (by decide)
  · exact isLine_append.mpr ⟨isLine_ofList (by decide), hjoined⟩

/-- **A default is on one line**, whatever it is. -/
theorem isLine_defaultLiteral (s : String) : IsLine (defaultLiteral s) := by
  refine isLine_ofList fun c hc => ?_
  obtain ⟨d, hd, hc⟩ := List.mem_flatMap.mp hc
  have hline := Json.oneLine_writeString true s d hd
  have hescaped : Text.OneLine (escapeHtml d) := by
    unfold escapeHtml
    refine iteInduction (fun _ => by decide) fun _ => ?_
    refine iteInduction (fun _ => by decide) fun _ => ?_
    refine iteInduction (fun _ => by decide) fun _ => ?_
    exact iteInduction (fun _ => by decide) fun _ => Text.oneLine_cons.mpr ⟨hline, by decide⟩
  exact hescaped c hc

theorem isLine_columnArgument {c : Column} {s : String} (h : columnArgument c = .ok s) : IsLine s := by
  unfold columnArgument at h
  split at h
  · cases h
    exact isLine_ofList (by decide)
  · obtain ⟨options, hoptions, rfl⟩ := Results.map_eq_ok.mp h
    refine isLine_append.mpr ⟨isLine_ofList (by decide), isLine_braced (isLine_append.mpr
      ⟨Naming.isLine_literal hoptions, ?_⟩)⟩
    split
    · exact isLine_ofList (by decide)
    · refine isLine_append.mpr ⟨isLine_append.mpr ⟨?_, isLine_ofList (by decide)⟩,
        isLine_defaultLiteral _⟩
      exact isLine_ite (isLine_ofList (by decide)) (isLine_ofList (by decide))

theorem isLine_propertyLine {name type : String} (hname : IsLine name) (htype : IsLine type) :
    IsLine (propertyLine p name type) := by
  have hproperty := p.isLine_propertyName hname
  have hword := p.isLine_visibilityWord
  have hmark := p.isLine_strictMark
  simp only [propertyLine, isLine_append, hproperty, hword, hmark, htype, and_true]
  and_intros <;> exact isLine_ofList (by decide)

theorem isLine_columnLines {c : Column} (hc : c.Unbroken) {ls : Lines}
    (h : columnLines p c = .ok ls) : ∀ l ∈ ls, IsLine l := by
  obtain ⟨argument, hargument, rfl⟩ := Results.map_eq_ok.mp h
  have hline := isLine_columnArgument hargument
  have hdb := hc.dbType
  have hgenerated : ∀ l ∈ (c.generated.map fun g => s!"    @Generated(\"{Choice.name g}\")").toList,
      IsLine l := by
    intro l hl
    obtain ⟨g, -, rfl⟩ := Option.map_eq_some_iff.mp (Option.mem_toList.mp hl)
    cases g <;> decide +kernel
  have htype : IsLine (columnType c) := by
    unfold columnType
    refine isLine_append.mpr ⟨hc.type, ?_⟩
    exact isLine_ite (isLine_ofList (by decide)) (isLine_ofList (by decide))
  have hproperty := isLine_propertyLine p hc.name htype
  simp only [List.forall_mem_append, List.forall_mem_cons, isLine_append, toString_text, hline, hdb,
    hproperty, and_true, true_and]
  refine ⟨⟨⟨isLine_ofList (by decide), List.forall_mem_nil _⟩, hgenerated⟩, ?_,
    List.forall_mem_nil _⟩
  and_intros <;> exact isLine_ofList (by decide)

theorem isLine_joinColumnObject {j : JoinColumn} (hj : j.Unbroken) : IsLine (joinColumnObject j) := by
  have hname := hj.name
  refine isLine_braced (isLine_append.mpr ⟨?_, ?_⟩)
  · simp only [isLine_append, toString_text, hname, and_true]
    and_intros <;> exact isLine_ofList (by decide)
  · split
    · rename_i r hr
      have hline := isLine_of_filled hj.referenced r hr
      simp only [isLine_append, toString_text, hline, and_true]
      and_intros <;> exact isLine_ofList (by decide)
    · exact isLine_ofList (by decide)

theorem isLine_joinColumnList {js : List JoinColumn} (hjs : ∀ j ∈ js, j.Unbroken) :
    IsLine (joinColumnList js) := by
  refine isLine_bracketed fun s hs => ?_
  obtain ⟨j, hj, rfl⟩ := List.mem_map.mp hs
  exact isLine_joinColumnObject (hjs j hj)

theorem isLine_joinColumnLines {r : Relation} (hr : r.Unbroken) :
    ∀ l ∈ joinColumnLines r, IsLine l := by
  have hjs : ∀ j ∈ r.joinColumns.getD [], j.Unbroken := by
    cases hcolumns : r.joinColumns with
    | none => exact List.forall_mem_nil _
    | some js => exact hr.joinColumns js hcolumns
  have hlist := isLine_joinColumnList hjs
  unfold joinColumnLines
  simp only
  split
  · exact List.forall_mem_nil _
  · simp only [List.forall_mem_cons, isLine_append, hlist, and_true]
    exact ⟨⟨isLine_ofList (by decide), isLine_ofList (by decide)⟩, List.forall_mem_nil _⟩

theorem isLine_tablePart {name : String} (hname : IsLine name) {js : List JoinColumn}
    (hjs : ∀ j ∈ js, j.Unbroken) : IsLine (tablePart name js) := by
  have hlist := isLine_joinColumnList hjs
  unfold tablePart
  split
  · exact isLine_ofList (by decide)
  · simp only [isLine_append, toString_text, hname, hlist, and_true]
    and_intros <;> exact isLine_ofList (by decide)

theorem isLine_joinTableLine {t : JoinTable} (ht : t.Unbroken) : IsLine (joinTableLine t) := by
  have hname := ht.name
  have hcolumns := isLine_tablePart (isLine_ofList (by decide) : IsLine "joinColumns") ht.joinColumns
  have hinverse :=
    isLine_tablePart (isLine_ofList (by decide) : IsLine "inverseJoinColumns") ht.inverseColumns
  refine isLine_append.mpr ⟨isLine_append.mpr ⟨isLine_ofList (by decide), isLine_braced
    (isLine_append.mpr ⟨isLine_append.mpr ⟨?_, hcolumns⟩, hinverse⟩)⟩, isLine_ofList (by decide)⟩
  simp only [isLine_append, toString_text, hname, and_true]
  and_intros <;> exact isLine_ofList (by decide)

theorem isLine_relationLine {r : Relation} (hr : r.Unbroken) {l : String}
    (h : relationLine p r = .ok l) : IsLine l := by
  obtain ⟨options, hoptions, rfl⟩ := Results.map_eq_ok.mp h
  have hargument := isLine_optionsArgument hoptions
  have hmodel : IsLine (p.modelName r.related) := p.isLine_className (fun _ => hr.related) .model rfl
  have hcardinality : IsLine r.cardinality.name := by
    generalize r.cardinality = c
    cases c <;> decide +kernel
  simp only [isLine_append, toString_text, hargument, hmodel, hcardinality, and_true]
  and_intros
  · exact isLine_ofList (by decide)
  · exact isLine_ofList (by decide)
  · split
    · rename_i i hi
      have hinverse := p.isLine_propertyName (isLine_of_filled hr.inverse i hi)
      exact isLine_append.mpr ⟨isLine_ofList (by decide), hinverse⟩
    · exact isLine_ofList (by decide)
  · exact isLine_ofList (by decide)

theorem isLine_relationLines {r : Relation} (hr : r.Unbroken) {ls : Lines}
    (h : relationLines p r = .ok ls) : ∀ l ∈ ls, IsLine l := by
  obtain ⟨decorator, hdecorator, rfl⟩ := Results.map_eq_ok.mp h
  have hline := isLine_relationLine p hr hdecorator
  have hcolumns := isLine_joinColumnLines hr
  have htable : ∀ l ∈ (r.joinTable.map joinTableLine).toList, IsLine l := by
    intro l hl
    obtain ⟨t, ht, rfl⟩ := Option.map_eq_some_iff.mp (Option.mem_toList.mp hl)
    exact isLine_joinTableLine (hr.joinTable t ht)
  have hmodel : IsLine (p.modelName r.related) := p.isLine_className (fun _ => hr.related) .model rfl
  have hproperty := isLine_propertyLine p hr.field (p.isLine_relationType hmodel r.cardinality)
  simp only [List.forall_mem_append, List.forall_mem_cons, hline, hproperty, true_and]
  exact ⟨⟨⟨⟨isLine_ofList (by decide), List.forall_mem_nil _⟩, hcolumns⟩, htable⟩,
    List.forall_mem_nil _⟩

/-- **No line of a model holds a break.** Its indices, columns and relations are taken one by one. -/
theorem isLine_modelLines {common : String} (hcommon : IsLine common) {files : EntityFiles}
    (hfiles : EntityFiles.Unbroken files) {e : Entity} (he : e.Unbroken) {ls : Lines}
    (h : modelLines p common files e = .ok ls) : ∀ l ∈ ls, IsLine l := by
  obtain ⟨indices, columns, relations, hindices, hcolumns, hrelations, rfl⟩ := modelLines_eq_ok.mp h
  have hindexLines := Results.forall_mem_mapM hindices fun i hi _ =>
    isLine_indexLine p (he.indices i hi)
  have hcolumnLines := Results.forall_mem_flatten_mapM hcolumns fun c hc _ =>
    isLine_columnLines p (he.columns c hc)
  have hrelationLines := Results.forall_mem_flatten_mapM hrelations fun r hr _ =>
    isLine_relationLines p (he.relations r hr)
  have hclass : ∀ n, IsLine n → IsLine (p.modelName n) := fun _ hn =>
    p.isLine_className (fun _ => hn) .model rfl
  have himports := isLine_relatedImports p hfiles .model hclass he.relations
  have hentity := isLine_entityLine he
  have hhead := isLine_classHead p (hclass _ he.name)
  have hbase := isLine_importLine (isLine_ofList (by decide) : IsLine "\x7bBaseModel\x7d")
    (isLine_append.mpr ⟨hcommon, (isLine_ofList (by decide) : IsLine "/base.model")⟩)
  have hdecorators : IsLine modelDecorators :=
    isLine_append.mpr ⟨isLine_ofList (by decide), isLine_ofList (by decide)⟩
  have htypeorm := isLine_importLine hdecorators (isLine_ofList (by decide) : IsLine "typeorm")
  simp only [modelOf, List.forall_mem_append, List.forall_mem_cons, isLine_append, hentity, hhead,
    hbase, htypeorm, true_and]
  refine ⟨⟨⟨⟨⟨⟨⟨List.forall_mem_nil _, himports⟩, ?_, List.forall_mem_nil _⟩, hindexLines⟩, ?_,
    List.forall_mem_nil _⟩, hcolumnLines⟩, hrelationLines⟩, ?_, List.forall_mem_nil _⟩
  · exact isLine_ofList (by decide)
  · exact isLine_ofList (by decide)
  · exact isLine_ofList (by decide)

/-! ## Files for all entities -/

/-- No text that is said of an entity breaks a line. -/
structure Mention.Unbroken (m : Mention) : Prop where
  name : IsLine m.name
  file : IsLine m.file

theorem isLine_mentionImports {models services controllers : String} (hmodels : IsLine models)
    (hservices : IsLine services) (hcontrollers : IsLine controllers) {m : Mention}
    (hm : m.Unbroken) : ∀ l ∈ mentionImports p models services controllers m, IsLine l := by
  have hslash : IsLine "/" := isLine_ofList (by decide)
  -- a class is imported from the file of its kind
  have himport : ∀ {name way : String} (a : Artifact), IsLine name → IsLine way →
      IsLine (importLine (p.localImport name) (way ++ "/" ++ p.fileName a m.file)) :=
    fun a hname hway => isLine_importLine (p.isLine_localImport hname)
      (isLine_append.mpr ⟨isLine_append.mpr ⟨hway, hslash⟩, p.isLine_fileName hm.file a⟩)
  simp only [mentionImports, List.forall_mem_cons]
  have hclass : ∀ a name, p.className? a m.name = some name → IsLine name := fun a _ =>
    p.isLine_className (fun _ => hm.name) a
  exact ⟨himport .model (hclass .model _ rfl) hmodels, himport .service (hclass .service _ rfl) hservices,
    himport .controller (hclass .controller _ rfl) hcontrollers, List.forall_mem_nil _⟩

theorem isLine_names {ms : List Mention} (hms : ∀ m ∈ ms, m.Unbroken) {className : String → String}
    (hclass : ∀ n, IsLine n → IsLine (className n)) :
    IsLine (bracketed (ms.map fun m => className m.name)) := by
  refine isLine_bracketed fun s hs => ?_
  obtain ⟨m, hm, rfl⟩ := List.mem_map.mp hs
  exact hclass _ (hms m hm).name

/-- **No line of a module holds a break**, if the name of its class has none. -/
theorem isLine_moduleLines {models services controllers : String} (hmodels : IsLine models)
    (hservices : IsLine services) (hcontrollers : IsLine controllers) {ms : List Mention}
    (hms : ∀ m ∈ ms, m.Unbroken) {module : String} (hmodule : IsLine (p.moduleName module)) :
    ∀ l ∈ moduleLines p models services controllers ms module, IsLine l := by
  have himports : ∀ l ∈ ms.flatMap (mentionImports p models services controllers), IsLine l :=
    List.forall_mem_flatMap.mpr fun m hm =>
      isLine_mentionImports p hmodels hservices hcontrollers (hms m hm)
  have hhead := isLine_classHead p hmodule
  have hclass : ∀ a base name, p.className? a base = some name → IsLine base → IsLine name :=
    fun a _ _ hname hbase => p.isLine_className (fun _ => hbase) a hname
  have hmodelNames := isLine_names hms fun _ => hclass .model _ (p.modelName _) rfl
  have hserviceNames := isLine_names hms fun _ => hclass .service _ (p.serviceName _) rfl
  have hcontrollerNames := isLine_names hms fun _ => hclass .controller _ (p.controllerName _) rfl
  simp only [moduleLines, List.forall_mem_append, List.forall_mem_cons, isLine_append, hhead,
    hmodelNames, hserviceNames, hcontrollerNames, and_true, true_and]
  refine ⟨⟨⟨?_, ?_, List.forall_mem_nil _⟩, himports⟩, ?_⟩
  · exact isLine_importLine (isLine_ofList (by decide)) (isLine_ofList (by decide))
  · exact isLine_importLine (isLine_ofList (by decide)) (isLine_ofList (by decide))
  · and_intros <;> first | exact isLine_ofList (by decide) | exact List.forall_mem_nil _

theorem isLine_indexLines {ms : List Mention} (hms : ∀ m ∈ ms, m.Unbroken) :
    ∀ l ∈ indexLines p ms, IsLine l := by
  intro l hl
  obtain ⟨m, hm, rfl⟩ := List.mem_map.mp hl
  have hname : IsLine (p.modelName m.name) := p.isLine_className (fun _ => (hms m hm).name) .model rfl
  have hpath : IsLine (inQuotes ("./" ++ p.fileName .model m.file)) :=
    isLine_inQuotes (isLine_append.mpr ⟨isLine_ofList (by decide),
      p.isLine_fileName (hms m hm).file .model⟩)
  unfold reexportLine
  simp only
  split
  · simp only [braced, isLine_append, toString_text, hname, hpath, and_true]
    and_intros <;> exact isLine_ofList (by decide)
  · simp only [isLine_append, toString_text, hpath, and_true]
    and_intros <;> exact isLine_ofList (by decide)

theorem isLine_projectLines : ∀ l ∈ projectLines p, IsLine l := by
  have hflag : ∀ b : Bool, IsLine (if b then "true" else "false") := by decide +kernel
  simp only [projectLines, List.forall_mem_cons, isLine_append, hflag, and_true]
  and_intros <;> first | exact isLine_ofList (by decide) | exact List.forall_mem_nil _

end Source

end Scaffold
