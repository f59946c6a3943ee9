import Scaffold.Proofs.Json.Nesting
import Scaffold.Proofs.Naming.Converted
import Scaffold.Proofs.Source.Joining
import Scaffold.Proofs.Source.OneLine
import Scaffold.Source.Template

/-!
# `Scaffold.Proofs.Source.Nesting` — the brackets of files

A file is a fixed text with holes, some of them filled by one text each and others by one for every
column, relation or index. If what is filled in is nested, it leaves pending what it found, so that the
holes drop out and the fixed text is left to be decided about. A bracket of a template may be opened in
one line and closed in another, so that this is done for the lines of a file together; what stands in a
line of its own for each part of an entity is nested by itself.

## Contents
- **Names.** `isNested_convert`, `isNested_className`, `isNested_fileName`, `isNested_localImport`,
  `isNested_relationType`.
- **Pieces.** `isNested_importLine`, `isNested_bracketed`, `isNested_relatedImports`,
  `isNested_joinLines`.
- **Services and controllers.** `isNested_service`, `isNested_routes`, `isNested_controller`.
- **Data transfer objects.** `isNested_dtoColumnLines`, `isNested_dto`.
- **Models.** `isNested_optionsArgument`, `isNested_columnLines`, `isNested_relationLines`,
  `isNested_model`.
- **Files for all entities.** `isNested_module`, `isNested_index`.
-/

namespace Scaffold

open Text (IsNested after_append after_literal isNested_append isNested_iff isNested_ite
  isNested_ofList toString_text)

/-! ## Names -/

namespace Naming

/-- **A converted name is nested**, if it was before: most styles leave no bracket in it, and the one
    that does leaves all of it. -/
theorem isNested_convert (s : CaseStyle) {name : String} (h : IsNested name) :
    IsNested (s.convert name) := by
  refine isNested_ofList ?_
  by_cases hs : s = .verbatim
  · subst hs
    exact h
  · exact Text.nested_of_plain fun c hc =>
      Text.isBracket_eq_false (by decide) (isNameChar_of_mem_convertChars hs _ c hc)

namespace Policy

variable (p : Policy)

theorem isNested_visibilityWord : IsNested p.visibilityWord := by
  unfold visibilityWord
  generalize p.visibility = v
  cases v <;> decide +kernel

theorem isNested_strictMark : IsNested p.strictMark := by
  unfold strictMark
  generalize p.strictness = m
  cases m <;> decide +kernel

variable {base : String} (h : IsNested base)
include h

theorem isNested_className (a : Artifact) {name : String} (hname : p.className? a base = some name) :
    IsNested name := by
  obtain ⟨suffix, hsuffix, rfl⟩ := Option.map_eq_some_iff.mp hname
  have hall : ∀ t ∈ a.classSuffix?, IsNested t := by cases a <;> decide +kernel
  exact isNested_append (isNested_convert _ h) (hall suffix hsuffix)

theorem isNested_propertyName : IsNested (p.propertyName base) := isNested_convert _ h

theorem isNested_fileName (a : Artifact) : IsNested (p.fileName a base) := by
  have hindex : IsNested "index" := isNested_ofList (by decide)
  have hsuffix : IsNested a.fileSuffix := by cases a <;> decide +kernel
  cases a with
  | index => exact isNested_convert _ hindex
  | module => exact isNested_append h hsuffix
  | model | dto | service | controller => exact isNested_append (isNested_convert _ h) hsuffix

theorem isNested_localImport : IsNested (p.localImport base) := by
  unfold localImport
  split
  · exact h
  · rw [isNested_iff]
    simp only [after_append, h.after, fish_pure]
    simp (disch := rfl) only [after_literal]
    rfl

theorem isNested_relationType (c : Schema.Cardinality) : IsNested (p.relationType base c) := by
  have hmany : IsNested (if c.isToMany then base ++ "[]" else base) :=
    isNested_ite (isNested_append h (isNested_ofList (by decide))) h
  unfold relationType
  refine isNested_ite ?_ hmany
  exact isNested_append (isNested_append (isNested_ofList (by decide)) hmany)
    (isNested_ofList (by decide))

end Policy

end Naming

namespace Source

open Naming (Policy)
open Schema (Column Entity Index JoinColumn JoinTable Relation)

/-! ## Pieces -/

theorem isNested_importLine {clause path : String} (hclause : IsNested clause)
    (hpath : IsNested path) : IsNested (importLine clause path) := by
  rw [isNested_iff]
  simp only [importLine, toString_text, after_append, hclause.after, hpath.after,
    fish_pure]
  simp (disch := rfl) only [after_literal]
  rfl

theorem isNested_braced {s : String} (h : IsNested s) : IsNested (braced s) := by
  rw [isNested_iff]
  simp only [braced, after_append, h.after, fish_pure]
  simp (disch := rfl) only [after_literal]
  rfl

theorem isNested_inQuotes {s : String} (h : IsNested s) : IsNested (inQuotes s) :=
  isNested_append (isNested_append (isNested_ofList (by decide)) h) (isNested_ofList (by decide))

theorem isNested_bracketed {items : List String} (h : ∀ s ∈ items, IsNested s) :
    IsNested (bracketed items) := by
  have hitems : IsNested (Text.joinWith ", " items) :=
    Text.isNested_joinWith (isNested_ofList (by decide)) h
  rw [isNested_iff]
  simp only [bracketed, after_append, hitems.after, fish_pure]
  simp (disch := rfl) only [after_literal]
  rfl

variable {eol : String} (heol : IsNested eol)

include heol in
theorem isNested_joinLines {ls : Lines} (h : ∀ l ∈ ls, IsNested l) : IsNested (joinLines eol ls) := by
  refine Text.isNested_concat fun s hs => ?_
  obtain ⟨l, hl, rfl⟩ := List.mem_map.mp hs
  exact isNested_append (h l hl) heol

theorem isNested_joinLines_flatMap {α : Type} {lines : α → Lines} {xs : List α}
    (h : ∀ x ∈ xs, IsNested (joinLines eol (lines x))) :
    IsNested (joinLines eol (xs.flatMap lines)) := by
  rw [List.flatMap_def, joinLines_flatten]
  refine Text.isNested_concat fun s hs => ?_
  obtain ⟨ls, hls, rfl⟩ := List.mem_map.mp hs
  obtain ⟨x, hx, rfl⟩ := List.mem_map.mp hls
  exact h x hx

variable (p : Policy)

theorem isNested_classHead {name : String} (h : IsNested name) : IsNested (classHead p name) := by
  have hdefault : IsNested (if p.isDefaultExport then "default " else "") :=
    isNested_ite (isNested_ofList (by decide)) (isNested_ofList (by decide))
  rw [isNested_iff]
  simp only [classHead, after_append, h.after, hdefault.after, fish_pure]
  simp (disch := rfl) only [after_literal]
  rfl

theorem isNested_relatedImports {files : EntityFiles} (hfiles : ∀ x ∈ files, IsNested x.2)
    (a : Artifact) {className : String → String} (hclass : ∀ n, IsNested n → IsNested (className n))
    {e : Entity} (he : ∀ r ∈ e.relations, IsNested r.related) :
    ∀ l ∈ relatedImports p files a className e, IsNested l := by
  intro l hl
  obtain ⟨n, hn, rfl⟩ := List.mem_map.mp hl
  obtain ⟨r, hr, rfl⟩ := exists_of_mem_relatedNames hn
  have hname := he r hr
  have hfile : IsNested (fileFor files r.related) := by
    rcases fileFor_cases files r.related with hsame | ⟨x, hx, hfile⟩
    · rwa [hsame]
    · exact hfile ▸ hfiles x hx
  exact isNested_importLine (p.isNested_localImport (hclass _ hname))
    (isNested_append (isNested_ofList (by decide)) (p.isNested_fileName hfile a))

/-! ## Services and controllers -/

include heol

/-- **A service is nested.** -/
theorem isNested_service {models dtos : String} (hmodels : IsNested models) (hdtos : IsNested dtos)
    {e : Entity} (he : ∀ s ∈ e.texts, IsNested s) :
    IsNested (joinLines eol (serviceLines p models dtos e)) := by
  obtain ⟨⟨hname, hfile, -⟩, hcolumns, -⟩ := Entity.forall_texts.mp he
  have hmodel : IsNested (p.modelName e.name) := p.isNested_className hname .model rfl
  have hdto : IsNested (p.dtoName e.name) := p.isNested_className hname .dto rfl
  have hservice : IsNested (p.serviceName e.name) := p.isNested_className hname .service rfl
  have hhead := isNested_classHead p hservice
  have hmodelImport := p.isNested_localImport hmodel
  have hdtoImport := p.isNested_localImport hdto
  have hmodelFile := p.isNested_fileName hfile .model
  have hdtoFile := p.isNested_fileName hfile .dto
  obtain ⟨hkey, htype⟩ : IsNested (serviceKey p e).1 ∧ IsNested (serviceKey p e).2 := by
    unfold serviceKey
    cases hcolumn : keyColumn? e with
    | none => exact ⟨isNested_ofList (by decide), isNested_ofList (by decide)⟩
    | some c =>
        have hc := hcolumns c (List.mem_filter.mp (List.mem_of_mem_head? hcolumn)).1
        obtain ⟨hname, htype, -⟩ := Column.forall_texts.mp hc
        exact ⟨p.isNested_propertyName hname, htype⟩
  rw [isNested_iff]
  simp only [joinLines, serviceLines, importLine, braced, List.map_cons, List.map_nil, Text.concat,
    toString_text, after_append, heol.after, hmodel.after, hdto.after, hhead.after,
    hmodelImport.after, hdtoImport.after, hmodelFile.after, hdtoFile.after, hmodels.after,
    hdtos.after, hkey.after, htype.after, fish_pure, fish_pipe]
  simp (disch := rfl) only [after_literal]
  rfl

theorem isNested_routes {key : String} (hkey : IsNested key) {r : Relation}
    (hr : IsNested r.field) : IsNested (joinLines eol (routeLines p key r)) := by
  have hname := p.isNested_propertyName hr
  have hroute := p.isNested_propertyName (isNested_append (isNested_ofList (by decide)) hr :
    IsNested ("find_" ++ r.field))
  rw [isNested_iff]
  simp only [joinLines, routeLines, List.map_cons, List.map_nil, Text.concat, toString_text,
    after_append, heol.after, hkey.after, hname.after, hroute.after, fish_pure]
  simp (disch := rfl) only [after_literal]
  rfl

/-- **A controller is nested**, with a route for each of the relations. -/
theorem isNested_controller {services dtos : String} (hservices : IsNested services)
    (hdtos : IsNested dtos) {e : Entity} (he : ∀ s ∈ e.texts, IsNested s) {relations : List Relation}
    (hrelations : relations ⊆ e.relations) :
    IsNested (joinLines eol (controllerLines p services dtos e relations)) := by
  obtain ⟨⟨hname, hfile, htable, -⟩, -, hfields, -⟩ := Entity.forall_texts.mp he
  have hservice : IsNested (p.serviceName e.name) := p.isNested_className hname .service rfl
  have hdto : IsNested (p.dtoName e.name) := p.isNested_className hname .dto rfl
  have hcontroller : IsNested (p.controllerName e.name) := p.isNested_className hname .controller rfl
  have hhead := isNested_classHead p hcontroller
  have hserviceImport := p.isNested_localImport hservice
  have hdtoImport := p.isNested_localImport hdto
  have hserviceFile := p.isNested_fileName hfile .service
  have hdtoFile := p.isNested_fileName hfile .dto
  have hkey : IsNested (controllerKey e) := by
    unfold controllerKey
    split
    · exact isNested_ite (isNested_ofList (by decide)) (isNested_ofList (by decide))
    · exact isNested_ofList (by decide)
  have hroutes : IsNested (joinLines eol (relations.flatMap (routeLines p (controllerKey e)))) :=
    isNested_joinLines_flatMap fun r hr =>
      isNested_routes heol p hkey (Relation.forall_texts.mp (hfields r (hrelations hr))).2.1
  rw [isNested_iff]
  simp only [controllerLines, joinLines_append, after_append, hroutes.after]
  simp only [joinLines, importLine, List.map_cons, List.map_nil, Text.concat, toString_text,
    after_append, heol.after, hservice.after, hdto.after, hhead.after, hserviceImport.after,
    hdtoImport.after, hserviceFile.after, hdtoFile.after, hservices.after, hdtos.after, htable.after,
    hkey.after, fish_pure, fish_pipe]
  simp (disch := rfl) only [after_literal]
  rfl

omit heol

/-! ## Data transfer objects -/

theorem isNested_dtoColumnLines {c : Column} (hname : IsNested c.name) (htype : IsNested c.type) :
    ∀ l ∈ dtoColumnLines p c, IsNested l := by
  have hword := p.isNested_visibilityWord
  have hmark := p.isNested_strictMark
  have hproperty := p.isNested_propertyName hname
  have hnull : IsNested (if c.nullable then " | null" else "") := by
    exact isNested_ite (isNested_ofList (by decide)) (isNested_ofList (by decide))
  have hend : IsNested ";" := isNested_ofList (by decide)
  have hfront : IsNested ("    " ++ p.visibilityWord ++ p.propertyName c.name) :=
    isNested_append (isNested_append (isNested_ofList (by decide)) hword) hproperty
  unfold dtoColumnLines
  simp only
  split
  · refine List.forall_mem_cons.mpr ⟨isNested_ofList (by decide), List.forall_mem_cons.mpr
      ⟨isNested_ofList (by decide), List.forall_mem_singleton.mpr ?_⟩⟩
    exact isNested_append (isNested_append (isNested_append (isNested_append hfront
      (isNested_ofList (by decide))) htype) hnull) hend
  · refine List.forall_mem_cons.mpr ⟨isNested_ofList (by decide), List.forall_mem_cons.mpr
      ⟨isNested_ofList (by decide), List.forall_mem_singleton.mpr ?_⟩⟩
    exact isNested_append (isNested_append (isNested_append (isNested_append hfront hmark)
      (isNested_ofList (by decide))) htype) hend

theorem isNested_dtoRelationLines {r : Relation} (hrelated : IsNested r.related)
    (hfield : IsNested r.field) : ∀ l ∈ dtoRelationLines p r, IsNested l := by
  have htype : IsNested (p.dtoName r.related) := p.isNested_className hrelated .dto rfl
  have hname := p.isNested_propertyName hfield
  have hword := p.isNested_visibilityWord
  refine List.forall_mem_cons.mpr ⟨isNested_ofList (by decide), List.forall_mem_cons.mpr ⟨?_,
    List.forall_mem_singleton.mpr ?_⟩⟩
  · rw [isNested_iff]
    simp only [braced, toString_text, after_append, htype.after, fish_pure]
    simp (disch := rfl) only [after_literal]
    rfl
  · rw [isNested_iff]
    simp only [after_append, hword.after, hname.after, htype.after, fish_pure]
    simp (disch := rfl) only [after_literal]
    rfl

include heol in
/-- **A data transfer object is nested.** -/
theorem isNested_dto {files : EntityFiles} (hfiles : ∀ x ∈ files, IsNested x.2) {e : Entity}
    (he : ∀ s ∈ e.texts, IsNested s) : IsNested (joinLines eol (dtoLines p files e)) := by
  obtain ⟨⟨hname, -⟩, hcolumns, hrelations, -⟩ := Entity.forall_texts.mp he
  have hclass : ∀ n, IsNested n → IsNested (p.dtoName n) := fun _ hn => p.isNested_className hn .dto rfl
  have hhead := isNested_classHead p (hclass _ hname)
  have hrelated : ∀ r ∈ e.relations, IsNested r.related := fun r hr =>
    (Relation.forall_texts.mp (hrelations r hr)).1
  have himports := isNested_joinLines heol
    (isNested_relatedImports p hfiles .dto hclass hrelated)
  have hcolumnLines : IsNested (joinLines eol (e.columns.flatMap (dtoColumnLines p))) := by
    refine isNested_joinLines heol (List.forall_mem_flatMap.mpr fun c hc => ?_)
    obtain ⟨hname, htype, -⟩ := Column.forall_texts.mp (hcolumns c hc)
    exact isNested_dtoColumnLines p hname htype
  have hrelationLines : IsNested (joinLines eol (e.relations.flatMap (dtoRelationLines p))) := by
    refine isNested_joinLines heol (List.forall_mem_flatMap.mpr fun r hr => ?_)
    obtain ⟨hrelated, hfield, -⟩ := Relation.forall_texts.mp (hrelations r hr)
    exact isNested_dtoRelationLines p hrelated hfield
  rw [isNested_iff]
  simp only [dtoLines, joinLines_append, after_append, himports.after, hcolumnLines.after,
    hrelationLines.after]
  simp only [joinLines, importLine, List.map_cons, List.map_nil, Text.concat, toString_text,
    after_append, heol.after, hhead.after, fish_pure, fish_pipe]
  simp (disch := rfl) only [after_literal]
  rfl

/-! ## Models -/

/-- Options are nested, if the texts that they hold are. -/
theorem isNested_optionsArgument {options : Entries}
    (hoptions : ∀ s ∈ (Value.map options).texts, IsNested s) {s : String}
    (h : optionsArgument options = .ok s) : IsNested s := by
  obtain ⟨-, rfl⟩ | ⟨-, o, ho, rfl⟩ := optionsArgument_eq_ok.mp h
  · exact isNested_ofList (by decide)
  · exact isNested_append (isNested_ofList (by decide))
      (isNested_braced (Naming.isNested_literal hoptions ho))

theorem isNested_indexLine {i : Index} (hi : ∀ s ∈ i.texts, IsNested s) {l : String}
    (h : indexLine p i = .ok l) : IsNested l := by
  obtain ⟨options, hoptions, rfl⟩ := Results.map_eq_ok.mp h
  obtain ⟨hname, hcolumns, hvalues⟩ := Index.forall_texts.mp hi
  have hargument := isNested_optionsArgument hvalues hoptions
  have hlist : IsNested (bracketed (i.columns.map fun c => inQuotes (p.propertyName c))) := by
    refine isNested_bracketed fun s hs => ?_
    obtain ⟨c, hc, rfl⟩ := List.mem_map.mp hs
    exact isNested_inQuotes (p.isNested_propertyName (hcolumns c hc))
  rw [isNested_iff]
  simp only [toString_text, after_append, hname.after, hlist.after, hargument.after,
    fish_pure]
  simp (disch := rfl) only [after_literal]
  rfl

theorem isNested_entityLine {e : Entity} (htable : IsNested e.table)
    (hdatabase : ∀ s ∈ e.database, IsNested s) (hschema : ∀ s ∈ e.schema, IsNested s) :
    IsNested (entityLine e) := by
  -- schema and database are put in alike
  have hpart : ∀ {o : Option String} {front : String}, (∀ s ∈ o, IsNested s) → IsNested front →
      ∀ s ∈ ((filled? o).map fun t => front ++ t ++ "\"").toList, IsNested s := by
    intro o front ho hfront s hs
    obtain ⟨t, ht, rfl⟩ := Option.map_eq_some_iff.mp (Option.mem_toList.mp hs)
    exact isNested_append (isNested_append hfront (ho t (mem_of_filled t ht)))
      (isNested_ofList (by decide))
  unfold entityLine
  extract_lets parts
  have hparts : ∀ s ∈ parts, IsNested s := List.forall_mem_append.mpr
    ⟨hpart hschema (isNested_ofList (by decide) : IsNested "schema: \""),
      hpart hdatabase (isNested_ofList (by decide) : IsNested "database: \"")⟩
  have hlist : IsNested (if parts.isEmpty then "" else ", " ++ braced (Text.joinWith ", " parts)) :=
    isNested_ite (isNested_ofList (by decide)) (isNested_append (isNested_ofList (by decide))
      (isNested_braced (Text.isNested_joinWith (isNested_ofList (by decide)) hparts)))
  rw [isNested_iff]
  simp only [toString_text, after_append, htable.after, hlist.after, fish_pure]
  simp (disch := rfl) only [after_literal]
  rfl

/-- **A default is nested**, if the text is: the characters that are escaped are no brackets. -/
theorem isNested_defaultLiteral {s : String} (h : IsNested s) : IsNested (defaultLiteral s) := by
  have hescaped : ∀ c, Text.Bears c (escapeHtml c) := by
    intro c
    unfold escapeHtml
    refine iteInduction (fun h => by rw [h]; rfl) fun _ => ?_
    refine iteInduction (fun h => by rw [h]; rfl) fun _ => ?_
    refine iteInduction (fun h => by rw [h]; rfl) fun _ => ?_
    exact iteInduction (fun h => by rw [h]; rfl) fun _ => rfl
  have hbrackets := (Text.brackets_flatMap hescaped (Json.writeString true s)).trans
    (Json.brackets_writeString true s)
  exact isNested_ofList ((Text.nested_congr hbrackets).mpr h)

theorem isNested_columnArgument {c : Column} (hdefault : ∀ s ∈ c.default, IsNested s)
    (hoptions : ∀ s ∈ (Value.map c.options).texts, IsNested s) {s : String}
    (h : columnArgument c = .ok s) : IsNested s := by
  unfold columnArgument at h
  split at h
  · cases h
    exact isNested_ofList (by decide)
  · obtain ⟨options, hliteral, rfl⟩ := Results.map_eq_ok.mp h
    refine isNested_append (isNested_ofList (by decide)) (isNested_braced
      (isNested_append (Naming.isNested_literal hoptions hliteral) ?_))
    split
    · exact isNested_ofList (by decide)
    · rename_i d hd
      refine isNested_append (isNested_append ?_ (isNested_ofList (by decide)))
        (isNested_defaultLiteral (hdefault d hd))
      exact isNested_ite (isNested_ofList (by decide)) (isNested_ofList (by decide))

theorem isNested_propertyLine {name type : String} (hname : IsNested name) (htype : IsNested type) :
    IsNested (propertyLine p name type) := by
  have hproperty := p.isNested_propertyName hname
  have hword := p.isNested_visibilityWord
  have hmark := p.isNested_strictMark
  rw [isNested_iff]
  simp only [propertyLine, after_append, hproperty.after, hword.after, hmark.after, htype.after,
    fish_pure]
  simp (disch := rfl) only [after_literal]
  rfl

theorem isNested_columnLines {c : Column} (hc : ∀ s ∈ c.texts, IsNested s) {ls : Lines}
    (h : columnLines p c = .ok ls) : ∀ l ∈ ls, IsNested l := by
  obtain ⟨argument, hargument, rfl⟩ := Results.map_eq_ok.mp h
  obtain ⟨hname, htype, hdb, hdefault, hoptions⟩ := Column.forall_texts.mp hc
  have hnested := isNested_columnArgument hdefault hoptions hargument
  have hgenerated : ∀ l ∈ (c.generated.map fun g => s!"    @Generated(\"{Choice.name g}\")").toList,
      IsNested l := by
    intro l hl
    obtain ⟨g, -, rfl⟩ := Option.map_eq_some_iff.mp (Option.mem_toList.mp hl)
    have hname : IsNested (Choice.name g) := by cases g <;> decide +kernel
    rw [isNested_iff]
    simp only [toString_text, after_append, hname.after, fish_pure]
    simp (disch := rfl) only [after_literal]
    rfl
  have hcolumn : IsNested s!"    @Column(\"{c.dbType}\"{argument})" := by
    rw [isNested_iff]
    simp only [toString_text, after_append, hdb.after, hnested.after, fish_pure]
    simp (disch := rfl) only [after_literal]
    rfl
  have hnull : IsNested (columnType c) := by
    unfold columnType
    refine isNested_append htype ?_
    exact isNested_ite (isNested_ofList (by decide)) (isNested_ofList (by decide))
  have hproperty := isNested_propertyLine p hname hnull
  simp only [List.forall_mem_append, List.forall_mem_cons]
  exact ⟨⟨⟨isNested_ofList (by decide), List.forall_mem_nil _⟩, hgenerated⟩, hcolumn, hproperty,
    List.forall_mem_nil _⟩

theorem isNested_joinColumnObject {j : JoinColumn} (hj : ∀ s ∈ j.texts, IsNested s) :
    IsNested (joinColumnObject j) := by
  obtain ⟨hname, hreferenced⟩ := JoinColumn.forall_texts.mp hj
  refine isNested_braced (isNested_append ?_ ?_)
  · exact isNested_append (isNested_append (isNested_ofList (by decide)) hname)
      (isNested_ofList (by decide))
  · split
    · rename_i r hr
      exact isNested_append (isNested_append (isNested_ofList (by decide))
        (hreferenced r (mem_of_filled r hr))) (isNested_ofList (by decide))
    · exact isNested_ofList (by decide)

theorem isNested_joinColumnList {js : List JoinColumn} (hjs : ∀ j ∈ js, ∀ s ∈ j.texts, IsNested s) :
    IsNested (joinColumnList js) := by
  refine isNested_bracketed fun s hs => ?_
  obtain ⟨j, hj, rfl⟩ := List.mem_map.mp hs
  exact isNested_joinColumnObject (hjs j hj)

theorem isNested_joinColumnLines {r : Relation}
    (hjs : ∀ j ∈ r.joinColumns.getD [], ∀ s ∈ j.texts, IsNested s) :
    ∀ l ∈ joinColumnLines r, IsNested l := by
  have hlist := isNested_joinColumnList hjs
  unfold joinColumnLines
  simp only
  split
  · exact List.forall_mem_nil _
  · refine List.forall_mem_singleton.mpr ?_
    rw [isNested_iff]
    simp only [after_append, hlist.after, fish_pure]
    simp (disch := rfl) only [after_literal]
    rfl

theorem isNested_tablePart {name : String} (hname : IsNested name) {js : List JoinColumn}
    (hjs : ∀ j ∈ js, ∀ s ∈ j.texts, IsNested s) : IsNested (tablePart name js) := by
  have hlist := isNested_joinColumnList hjs
  unfold tablePart
  split
  · exact isNested_ofList (by decide)
  · exact isNested_append (isNested_append (isNested_append (isNested_ofList (by decide)) hname)
      (isNested_ofList (by decide))) hlist

theorem isNested_joinTableLine {t : JoinTable} (ht : ∀ s ∈ t.texts, IsNested s) :
    IsNested (joinTableLine t) := by
  obtain ⟨hname, hjs, his⟩ := JoinTable.forall_texts.mp ht
  have hcolumns := isNested_tablePart (isNested_ofList (by decide) : IsNested "joinColumns") hjs
  have hinverse := isNested_tablePart (isNested_ofList (by decide) : IsNested "inverseJoinColumns") his
  have hbody := isNested_append (isNested_append (isNested_append (isNested_append
    (isNested_ofList (by decide) : IsNested "name: \"") hname)
    (isNested_ofList (by decide) : IsNested "\"")) hcolumns) hinverse
  have hobject := isNested_braced hbody
  unfold joinTableLine
  rw [isNested_iff, after_append, after_append]
  simp only [toString_text, hobject.after, fish_pure]
  simp (disch := rfl) only [after_literal]
  rfl

theorem isNested_relationLine {r : Relation} (hr : ∀ s ∈ r.texts, IsNested s) {l : String}
    (h : relationLine p r = .ok l) : IsNested l := by
  obtain ⟨options, hoptions, rfl⟩ := Results.map_eq_ok.mp h
  obtain ⟨hrelated, -, hinverse, -, -, hvalues⟩ := Relation.forall_texts.mp hr
  have hargument := isNested_optionsArgument hvalues hoptions
  have hmodel : IsNested (p.modelName r.related) := p.isNested_className hrelated .model rfl
  have hcardinality : IsNested r.cardinality.name := by
    generalize r.cardinality = c
    cases c <;> decide +kernel
  rw [isNested_iff]
  simp only [toString_text, after_append, hcardinality.after, hmodel.after, hargument.after,
    fish_pure]
  cases hback : filled? r.inverse with
  | none =>
      simp (disch := rfl) only [after_literal]
      rfl
  | some i =>
      have hproperty := p.isNested_propertyName (hinverse i (mem_of_filled i hback))
      simp only [after_append, hproperty.after, fish_pure]
      simp (disch := rfl) only [after_literal]
      rfl

theorem isNested_relationLines {r : Relation} (hr : ∀ s ∈ r.texts, IsNested s) {ls : Lines}
    (h : relationLines p r = .ok ls) : ∀ l ∈ ls, IsNested l := by
  obtain ⟨decorator, hdecorator, rfl⟩ := Results.map_eq_ok.mp h
  obtain ⟨hrelated, hfield, -, hjs, htable, -⟩ := Relation.forall_texts.mp hr
  have hline := isNested_relationLine p hr hdecorator
  have hcolumns := isNested_joinColumnLines hjs
  have htables : ∀ l ∈ (r.joinTable.map joinTableLine).toList, IsNested l := by
    intro l hl
    obtain ⟨t, ht, rfl⟩ := Option.map_eq_some_iff.mp (Option.mem_toList.mp hl)
    exact isNested_joinTableLine (htable t ht)
  have hmodel : IsNested (p.modelName r.related) := p.isNested_className hrelated .model rfl
  have hproperty := isNested_propertyLine p hfield (p.isNested_relationType hmodel r.cardinality)
  simp only [List.forall_mem_append, List.forall_mem_cons]
  exact ⟨⟨⟨⟨isNested_ofList (by decide), hline, List.forall_mem_nil _⟩, hcolumns⟩, htables⟩,
    hproperty, List.forall_mem_nil _⟩

theorem isNested_modelDecorators : IsNested modelDecorators := by
  unfold modelDecorators
  rw [isNested_iff, after_append]
  simp (disch := rfl) only [after_literal]
  rfl

include heol in
/-- **A model is nested.** Its indices, columns and relations are taken one by one. -/
theorem isNested_model {common : String} (hcommon : IsNested common) {files : EntityFiles}
    (hfiles : ∀ x ∈ files, IsNested x.2) {e : Entity} (he : ∀ s ∈ e.texts, IsNested s) {ls : Lines}
    (h : modelLines p common files e = .ok ls) : IsNested (joinLines eol ls) := by
  obtain ⟨indices, columns, relations, hindices, hcolumns, hrelations, rfl⟩ := modelLines_eq_ok.mp h
  obtain ⟨⟨hname, -, htable, hdatabase, hschema⟩, hcs, hrs, his⟩ := Entity.forall_texts.mp he
  have hindexLines := isNested_joinLines heol
    (Results.forall_mem_mapM hindices fun i hi _ => isNested_indexLine p (his i hi))
  have hcolumnLines := isNested_joinLines heol
    (Results.forall_mem_flatten_mapM hcolumns fun c hc _ => isNested_columnLines p (hcs c hc))
  have hrelationLines := isNested_joinLines heol
    (Results.forall_mem_flatten_mapM hrelations fun r hr _ => isNested_relationLines p (hrs r hr))
  have hrelated : ∀ r ∈ e.relations, IsNested r.related := fun r hr =>
    (Relation.forall_texts.mp (hrs r hr)).1
  have hclass : ∀ n, IsNested n → IsNested (p.modelName n) := fun _ hn =>
    p.isNested_className hn .model rfl
  have himports := isNested_joinLines heol
    (isNested_relatedImports p hfiles .model hclass hrelated)
  have hentity := isNested_entityLine htable hdatabase hschema
  have hhead := isNested_classHead p (hclass _ hname)
  have hbase := isNested_importLine (isNested_ofList (by decide) : IsNested "\x7bBaseModel\x7d")
    (isNested_append hcommon (isNested_ofList (by decide) : IsNested "/base.model"))
  have htypeorm := isNested_importLine isNested_modelDecorators
    (isNested_ofList (by decide) : IsNested "typeorm")
  rw [isNested_iff]
  simp only [modelOf, joinLines_append, after_append, himports.after, hindexLines.after,
    hcolumnLines.after, hrelationLines.after]
  simp only [joinLines, List.map_cons, List.map_nil, Text.concat, after_append, heol.after,
    hbase.after, htypeorm.after, hentity.after, hhead.after, fish_pure, fish_pipe]
  simp (disch := rfl) only [after_literal]
  rfl

/-! ## Files for all entities -/

theorem isNested_names {ms : List Mention} (hms : ∀ m ∈ ms, IsNested m.name)
    {className : String → String} (hclass : ∀ n, IsNested n → IsNested (className n)) :
    IsNested (bracketed (ms.map fun m => className m.name)) := by
  refine isNested_bracketed fun s hs => ?_
  obtain ⟨m, hm, rfl⟩ := List.mem_map.mp hs
  exact hclass _ (hms m hm)

theorem isNested_mentionImports {models services controllers : String} (hmodels : IsNested models)
    (hservices : IsNested services) (hcontrollers : IsNested controllers) {m : Mention}
    (hname : IsNested m.name) (hfile : IsNested m.file) :
    ∀ l ∈ mentionImports p models services controllers m, IsNested l := by
  -- a class is imported from the file of its kind
  have himport : ∀ {name way : String} (a : Artifact), IsNested name → IsNested way →
      IsNested (importLine (p.localImport name) (way ++ "/" ++ p.fileName a m.file)) :=
    fun a hname hway => isNested_importLine (p.isNested_localImport hname)
      (isNested_append (isNested_append hway (isNested_ofList (by decide)))
        (p.isNested_fileName hfile a))
  have hclass : ∀ a name, p.className? a m.name = some name → IsNested name := fun a _ =>
    p.isNested_className hname a
  exact List.forall_mem_cons.mpr ⟨himport .model (hclass .model _ rfl) hmodels,
    List.forall_mem_cons.mpr ⟨himport .service (hclass .service _ rfl) hservices,
      List.forall_mem_singleton.mpr (himport .controller (hclass .controller _ rfl) hcontrollers)⟩⟩

include heol in
/-- **A module is nested**, if its name is. -/
theorem isNested_module {models services controllers : String} (hmodels : IsNested models)
    (hservices : IsNested services) (hcontrollers : IsNested controllers) {ms : List Mention}
    (hms : ∀ m ∈ ms, IsNested m.name ∧ IsNested m.file) {module : String} (hmodule : IsNested module) :
    IsNested (joinLines eol (moduleLines p models services controllers ms module)) := by
  have himports : IsNested (joinLines eol (ms.flatMap (mentionImports p models services controllers))) :=
    isNested_joinLines heol (List.forall_mem_flatMap.mpr fun m hm =>
      isNested_mentionImports p hmodels hservices hcontrollers (hms m hm).1 (hms m hm).2)
  have hnames : ∀ m ∈ ms, IsNested m.name := fun m hm => (hms m hm).1
  have hclass : ∀ a base name, p.className? a base = some name → IsNested base → IsNested name :=
    fun a _ _ hname hbase => p.isNested_className hbase a hname
  have hhead := isNested_classHead p (hclass .module module (p.moduleName module) rfl hmodule)
  have hmodelNames := isNested_names hnames fun _ => hclass .model _ (p.modelName _) rfl
  have hserviceNames := isNested_names hnames fun _ => hclass .service _ (p.serviceName _) rfl
  have hcontrollerNames := isNested_names hnames fun _ => hclass .controller _ (p.controllerName _) rfl
  rw [isNested_iff]
  simp only [moduleLines, joinLines_append, after_append, himports.after]
  simp only [joinLines, importLine, List.map_cons, List.map_nil, Text.concat, toString_text,
    after_append, heol.after, hhead.after, hmodelNames.after, hserviceNames.after,
    hcontrollerNames.after, fish_pure, fish_pipe]
  simp (disch := rfl) only [after_literal]
  rfl

theorem isNested_reexportLine {m : Mention} (hname : IsNested m.name) (hfile : IsNested m.file) :
    IsNested (reexportLine p m) := by
  have hmodel : IsNested (p.modelName m.name) := p.isNested_className hname .model rfl
  have hpath : IsNested (inQuotes ("./" ++ p.fileName .model m.file)) :=
    isNested_inQuotes (isNested_append (isNested_ofList (by decide))
      (p.isNested_fileName hfile .model))
  unfold reexportLine
  generalize inQuotes ("./" ++ p.fileName .model m.file) = path at hpath
  simp only
  split
  · have hclass := isNested_braced
      (isNested_append (isNested_ofList (by decide) : IsNested "default as ") hmodel)
    have hsource : IsNested s!" from {path};" :=
      isNested_append (isNested_append (isNested_ofList (by decide)) hpath)
        (isNested_ofList (by decide))
    exact isNested_append (isNested_append (isNested_ofList (by decide)) hclass) hsource
  · exact isNested_append (isNested_append (isNested_ofList (by decide)) hpath)
      (isNested_ofList (by decide))

include heol in
/-- **The index is nested.** -/
theorem isNested_index {ms : List Mention} (hms : ∀ m ∈ ms, IsNested m.name ∧ IsNested m.file) :
    IsNested (joinLines eol (indexLines p ms)) := by
  refine isNested_joinLines heol fun l hl => ?_
  obtain ⟨m, hm, rfl⟩ := List.mem_map.mp hl
  exact isNested_reexportLine p (hms m hm).1 (hms m hm).2

end Source

end Scaffold
