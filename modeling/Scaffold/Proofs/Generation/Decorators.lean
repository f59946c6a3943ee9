import Scaffold.Proofs.Generation.References
import Scaffold.Proofs.Source.Applied

/-!
# `Scaffold.Proofs.Generation.Decorators` — files import the decorators that they apply

A model, a service, a controller, a module and a data transfer object are finished from a text that begins
with an import of all decorators of the kind. What its template applies is imported and stays applied, and
what is imported was applied somewhere in the text (`decorators_taken`). In a data transfer object this can
be within an import of nothing that the schema put there, which is removed afterwards
(`exists_taken_unapplied`). The import itself is gone exactly if nothing is applied.

## Contents
- **Texts.** `Job.seen`, `Job.unpruned`, `Job.text_eq`, `Takes`, `text_of_lines`, `takes_of_lines`.
- **Files.** `takes_entity`, `takes_module`.
- **Data transfer objects.** `application_infix_dto`, `names_dto_eq_nil_iff`.
- **Jobs.** `Job.TakesAll`, `decorators_taken`, `taken_post`.
- **Schema texts.** `importingDocument`, `importingLines`, `finishChars_importingLines`,
  `exists_taken_unapplied`.
-/

namespace Scaffold.Generation

open Disk (Path)
open Schema (Entity Options)
open Source (Decorated Headed Lines RenderFault Scope Template Used appliedBy application decoratorsOf
  finishChars importOf joinLines)
open Text (Eol IsLineEnding recast)

variable {j : Job} {eol : Eol}

/-! ## Texts -/

/-- What the template of a kind sees, with the ways to other files. -/
def Job.seen (j : Job) (a : Artifact) (scope : Scope) : Scope :=
  { scope with
    paths := some (j.layout.importPrefixes a)
    entityFiles := some j.entityFiles }

/-- A rendered text with its line endings, before its imports are pruned. -/
def Job.unpruned (j : Job) (a : Artifact) (scope : Scope) : Except RenderFault String :=
  ((Template.ofArtifact a).render j.policy (j.seen a scope) j.platform).bind j.normalized

/-- Texts are pruned last. -/
theorem Job.text_eq (j : Job) (a : Artifact) (scope : Scope) :
    j.text a scope = (j.unpruned a scope).map (Job.pruned a) := by
  unfold Job.text Job.unpruned Job.finish Job.seen
  cases (Template.ofArtifact a).render j.policy _ j.platform <;> rfl

/-- **A file takes what it applies.** `names` are what it imports of the decorators of its kind. -/
def Takes (j : Job) (eol : Eol) (a : Artifact) (scope : Scope) (applied names : List String)
    (text : String) : Prop :=
  ∃ body rest,
    j.unpruned a scope = .ok (String.ofList (importOf eol a (decoratorsOf a) ++ body)) ∧
      Decorated eol a applied names body rest text.toList

/-- What is rendered from lines is known before and after pruning. -/
theorem text_of_lines (heol : j.eol = .ok eol) {a : Artifact} (ha : a ≠ .index) {scope : Scope}
    {ls : Lines} (hls : (Template.ofArtifact a).lines j.policy (j.seen a scope) = .ok ls) :
    j.unpruned a scope = .ok (String.ofList (recast eol j.platform (joinLines j.platform ls).toList)) ∧
      j.text a scope = .ok (String.ofList (finishChars (a ≠ .model)
        (recast eol j.platform (joinLines j.platform ls).toList))) := by
  have hunpruned : j.unpruned a scope =
      .ok (String.ofList (recast eol j.platform (joinLines j.platform ls).toList)) := by
    unfold Job.unpruned Template.render Job.normalized
    rw [hls, heol, ← Text.normalize_eq]
    rfl
  refine ⟨hunpruned, ?_⟩
  rw [j.text_eq, hunpruned, Except.map, pruned_eq ha, String.toList_ofList]

/-- The lines of a file tell what it takes. -/
theorem takes_of_lines (hp : IsLineEnding j.platform) (heol : j.eol = .ok eol) {a : Artifact}
    (ha : a ≠ .index) {scope : Scope} {ls : Lines}
    (hls : (Template.ofArtifact a).lines j.policy (j.seen a scope) = .ok ls) {applied : List String}
    (h : Headed a applied ls) (hmodel : a = .model → ∃ n ∈ applied, n ∈ decoratorsOf a)
    (hothers : a ≠ .model → a ≠ .dto → ∀ n ∈ decoratorsOf a, n ∈ applied) {text : String}
    (htext : j.text a scope = .ok text) : ∃ names, Takes j eol a scope applied names text := by
  obtain ⟨hunpruned, hfinished⟩ := text_of_lines heol ha hls
  obtain ⟨rest, hrest⟩ := Source.decorated_finishChars (e := eol)
    (h.applies_recast (e := eol) hp) hmodel hothers
  rw [h.recast_eq hp] at hunpruned hfinished
  have hfront : importOf eol a (decoratorsOf a) =
      (Source.taken (Source.joined (decoratorsOf a)) (Source.packageOf a)).line.toList ++
        eol.sequence.toList := if_neg (Source.decoratorsOf_ne_nil ha)
  generalize recast eol j.platform (joinLines j.platform ls.tail).toList = body at *
  refine ⟨Source.usedNames (decoratorsOf a) body, body, rest, ?_, ?_⟩
  · rw [hunpruned, hfront, List.append_assoc]
  · rw [hfinished] at htext
    rw [← Except.ok.inj htext, String.toList_ofList]
    exact hrest

/-! ## Files -/

/-- The files of an entity take what they apply. -/
theorem takes_entity (hp : IsLineEnding j.platform) (heol : j.eol = .ok eol) {a : Artifact} {e : Entity}
    {seen : Projection} (hseen : project? e a = some seen) {text : String}
    (htext : (j.entityDraft a e).text = .ok text) :
    ∃ names, Takes j eol a (Job.entityScope seen) (appliedBy a seen) names text := by
  have hscope : j.text a (Job.entityScope seen) = .ok text := by
    rw [← htext, Job.entityDraft, hseen]
    rfl
  have hlines : ∀ ls, j.entityLines a seen = .ok ls → (Template.ofArtifact a).lines j.policy
      (j.seen a (Job.entityScope seen)) = .ok ls := fun ls h => h
  cases a with
  | model =>
      cases hseen
      obtain ⟨ls, hls, -⟩ := exists_lines_of_model htext
      have hmodel : j.entityLines .model ⟨e.forModel, []⟩ = .ok ls := by
        rw [j.lines_model, hls]
        rfl
      refine takes_of_lines hp heol (by decide) (hlines _ hmodel) (Source.headed_model hls)
        (fun _ => ⟨"Entity", ?_, by decide⟩) (fun h => absurd rfl h) hscope
      exact List.mem_append_right _ List.mem_cons_self
  | dto =>
      cases hseen
      exact takes_of_lines hp heol (by decide) (hlines _ (j.lines_dto e)) (Source.headed_dto _ _ _)
        (fun h => absurd h (by decide)) (fun _ h => absurd rfl h) hscope
  | service =>
      cases hseen
      exact takes_of_lines hp heol (by decide) (hlines _ rfl) (Source.headed_service _ _ ⟨e, []⟩)
        (fun h => absurd h (by decide)) (fun _ _ => by simp [decoratorsOf, appliedBy]) hscope
  | controller =>
      cases hseen
      exact takes_of_lines hp heol (by decide) (hlines _ rfl)
        (Source.headed_controller _ _ ⟨e, e.oneToMany⟩) (fun h => absurd h (by decide))
        (fun _ _ => by simp [decoratorsOf, appliedBy]) hscope
  | module => cases hseen
  | index => cases hseen

/-- The module takes what it applies. -/
theorem takes_module (hp : IsLineEnding j.platform) (heol : j.eol = .ok eol) {text : String}
    (htext : (j.jointDraft .module).text = .ok text) :
    ∃ names, Takes j eol .module j.jointScope ["Module"] names text := by
  have hlines : (Template.ofArtifact .module).lines j.policy (j.seen .module j.jointScope) =
      .ok (Source.moduleLines j.policy (j.layout.importPrefix .module .model)
        (j.layout.importPrefix .module .service) (j.layout.importPrefix .module .controller)
        (j.entities.map Job.mention) j.module) := j.lines_module
  exact takes_of_lines hp heol (by decide) hlines (Source.headed_module _ _ _ _ _)
    (fun h => absurd h (by decide)) (fun _ _ => by simp [decoratorsOf]) htext

/-! ## Data transfer objects -/

/-- A class without members applies a decorator exactly if its name does. -/
theorem application_infix_dto (hp : IsLineEnding j.platform) {e : Entity} (hcolumns : e.columns = [])
    (hrelations : e.relations = []) (files : Source.EntityFiles) {n : String}
    (hn : n ∈ decoratorsOf .dto) :
    application n.toList <:+: recast eol j.platform
        (joinLines j.platform (Source.dtoLines j.policy files e).tail).toList ↔
      application n.toList <:+: (j.policy.dtoName e.name).toList := by
  have hsolid : Source.Solid n := ((Source.offered .dto).listable n hn).2.1
  have hline := Source.oneLine_application hsolid
  have hne := Source.application_ne_nil n.toList
  have hlines : (Source.dtoLines j.policy files e).tail =
      ["", Source.classHead j.policy (j.policy.dtoName e.name) ++ " \x7b", "\x7d"] := by
    simp [Source.dtoLines, Source.relatedImports, Source.relatedNames, hcolumns, hrelations,
      Source.uniqueNames, Source.uniqueFrom]
  have hnone : ∀ cs : List Char, '@' ∉ cs → ¬ application n.toList <:+: cs :=
    fun cs hcs hin => hcs (hin.subset List.mem_cons_self)
  -- the name of the class stands between blanks
  have hblank : ' ' ∉ application n.toList := by
    intro hm
    rcases List.mem_append.mp hm with hm | hm
    · rcases List.mem_cons.mp hm with hm | hm
      · exact absurd hm (by decide)
      · exact absurd (hsolid _ hm).1 (by decide)
    · exact absurd hm (by decide)
  have hhead : application n.toList <:+:
      (Source.classHead j.policy (j.policy.dtoName e.name) ++ " \x7b").toList ↔
        application n.toList <:+: (j.policy.dtoName e.name).toList := by
    obtain ⟨front, hfront, hplain⟩ : ∃ front, (Source.classHead j.policy "").toList = front ++ [' '] ∧
        '@' ∉ front := by
      unfold Source.classHead
      cases j.policy.isDefaultExport
      · exact ⟨"export class".toList, by decide, by decide⟩
      · exact ⟨"export default class".toList, by decide, by decide⟩
    have htext : (Source.classHead j.policy (j.policy.dtoName e.name) ++ " \x7b").toList =
        front ++ ' ' :: ((j.policy.dtoName e.name).toList ++ ' ' :: ['\x7b']) := by
      rw [String.toList_append, Source.classHead_eq, hfront]
      simp
    rw [htext, Text.infix_append_cons_iff hblank, Text.infix_append_cons_iff hblank,
      or_iff_right (hnone _ hplain), or_iff_left (hnone _ (by decide))]
  rw [Text.infix_recast_iff hline hne, Source.infix_joinLines_iff hp hline hne, hlines]
  simp only [List.mem_cons, List.not_mem_nil, or_false, exists_eq_or_imp, exists_eq_left, hhead]
  rw [or_iff_right (hnone _ (by decide)), or_iff_left (hnone _ (by decide))]

theorem appliedBy_dto_eq_nil {seen : Projection} :
    appliedBy .dto seen = [] ↔ seen.entity.columns = [] ∧ seen.entity.relations = [] := by
  simp [appliedBy]

theorem offered_of_appliedBy {seen : Projection} {n : String} (hn : n ∈ appliedBy .dto seen) :
    n ∈ decoratorsOf .dto := by
  rcases List.mem_append.mp hn with hn | hn
  · obtain ⟨c, -, rfl⟩ := List.mem_map.mp hn
    unfold Source.memberDecorator
    split <;> decide
  · obtain ⟨r, -, rfl⟩ := List.mem_map.mp hn
    decide

/-- **The import is gone from a data transfer object** exactly if its template applies nothing and the name
    of the class, then the only text of the schema in it, does not either. -/
theorem names_dto_eq_nil_iff (hp : IsLineEnding j.platform) (heol : j.eol = .ok eol) {e : Entity}
    {names : List String} {text : String} (h : Takes j eol .dto (Job.entityScope ⟨e.forDto, []⟩)
      (appliedBy .dto ⟨e.forDto, []⟩) names text) :
    names = [] ↔ appliedBy .dto ⟨e.forDto, []⟩ = [] ∧
      ∀ n ∈ decoratorsOf .dto, ¬ application n.toList <:+: (j.policy.dtoName e.name).toList := by
  obtain ⟨body, rest, hunpruned, hdecorated⟩ := h
  have hlines : (Template.ofArtifact .dto).lines j.policy
      (j.seen .dto (Job.entityScope ⟨e.forDto, []⟩)) = .ok (Source.dtoLines j.policy j.entityFiles e.forDto) :=
    j.lines_dto e
  have hheaded := Source.headed_dto (p := j.policy) j.entityFiles e.forDto []
  have hbody : body = recast eol j.platform
      (joinLines j.platform (Source.dtoLines j.policy j.entityFiles e.forDto).tail).toList := by
    have hsame := Except.ok.inj (hunpruned.symm.trans (text_of_lines heol (by decide) hlines).1)
    rw [String.ofList_inj, hheaded.recast_eq hp, ← List.append_assoc] at hsame
    exact List.append_cancel_left hsame
  have hnames : names = [] ↔ ∀ n ∈ decoratorsOf .dto, ¬ application n.toList <:+: body := by
    have hbase : ∀ n ∈ decoratorsOf .dto, n.toList ≠ Source.baseClass.toList := by decide
    rw [List.eq_nil_iff_forall_not_mem]
    constructor
    · exact fun hnone n hn happlies => hnone n ((hdecorated.mem_iff n hn).mpr (.inl happlies))
    · intro hnone n hn
      have hoffered := hdecorated.listed.subset hn
      rcases (hdecorated.mem_iff n hoffered).mp hn with happlies | ⟨hsame, -⟩
      · exact hnone n hoffered happlies
      · exact hbase n hoffered hsame
  have hname : appliedBy .dto ⟨e.forDto, []⟩ = [] → ∀ n ∈ decoratorsOf .dto,
      (application n.toList <:+: body ↔ application n.toList <:+: (j.policy.dtoName e.name).toList) := by
    intro hnothing n hn
    obtain ⟨hcolumns, hrelations⟩ := appliedBy_dto_eq_nil.mp hnothing
    rw [hbody]
    exact application_infix_dto hp hcolumns hrelations j.entityFiles hn
  constructor
  · intro hnone
    have hnothing : appliedBy .dto ⟨e.forDto, []⟩ = [] := by
      rw [List.eq_nil_iff_forall_not_mem]
      intro n hn
      have hmem := (hdecorated.applied n hn (offered_of_appliedBy hn)).1
      exact absurd (hnone ▸ hmem) List.not_mem_nil
    exact ⟨hnothing, fun n hn happlies => hnames.mp hnone n hn ((hname hnothing n hn).mpr happlies)⟩
  · rintro ⟨hnothing, hnone⟩
    exact hnames.mpr fun n hn happlies => hnone n hn ((hname hnothing n hn).mp happlies)

/-! ## Jobs -/

/-- **The files of a job take the decorators that they apply.** -/
structure Job.TakesAll (j : Job) (eol : Eol) : Prop where
  /-- So do the files of every entity, which need not be one of the job. -/
  entity : ∀ a e seen text, project? e a = some seen → (j.entityDraft a e).text = .ok text →
    ∃ names, Takes j eol a (Job.entityScope seen) (appliedBy a seen) names text
  module : ∀ text, (j.jointDraft .module).text = .ok text →
    ∃ names, Takes j eol .module j.jointScope ["Module"] names text
  /-- The import is gone from a data transfer object exactly if its template applies no decorator and no
      text of the schema does. The only such text in a class without members is its name. -/
  gone : ∀ (e : Entity) names text, Takes j eol .dto (Job.entityScope ⟨e.forDto, []⟩)
    (appliedBy .dto ⟨e.forDto, []⟩) names text →
    (names = [] ↔ appliedBy .dto ⟨e.forDto, []⟩ = [] ∧
      ∀ n ∈ decoratorsOf .dto, ¬ application n.toList <:+: (j.policy.dtoName e.name).toList)
  /-- These files have a text, a model if the options of its decorators are values of JSON. -/
  made : (∀ a ∈ Layout.entityKinds, ∀ e, (a = .model → JsonValued e) →
      ∃ text, (j.entityDraft a e).text = .ok text) ∧
    ∃ text, (j.jointDraft .module).text = .ok text

/-- **What is applied is imported, and what is imported was applied**, for every entity, all conventions and
    both line endings. -/
theorem decorators_taken (hp : IsLineEnding j.platform) (heol : j.eol = .ok eol) : j.TakesAll eol where
  entity _ _ _ _ hseen htext := takes_entity hp heol hseen htext
  module _ htext := takes_module hp heol htext
  gone _ _ _ h := names_dto_eq_nil_iff hp heol h
  made := by
    refine ⟨fun a ha e he => exists_text_entity heol ha he, ?_⟩
    rw [j.text_module]
    exact ⟨_, j.finished_eq heol .module _⟩

/-- A post, with a key, a token that is generated, a title that need not be there, a writer and comments. -/
def post : Entity :=
  { bareEntity "post" with
    columns := [⟨"id", "number", "int", true, none, none, []⟩,
      ⟨"token", "string", "char", false, some .uuid, none, []⟩,
      ⟨"title", "string", "varchar", false, none, none, [(.text "nullable", .bool true)]⟩]
    relations := [⟨.manyToOne, "user", "writer", some "posts", some [⟨"user_id", some "id"⟩], none, []⟩,
      ⟨.oneToMany, "comment", "comments", some "post", none, none, []⟩]
    indices := [⟨"titles", ["title"], [(.text "unique", .bool true)]⟩] }

/-- The job of a run over posts on an empty disk. -/
def postJob : Job :=
  jobOf (.ofDisk ⟨[]⟩) [post] (Options.standard "\n") (Schema.legal_standard "\n") ["output"]

theorem jsonValued_post : JsonValued post where
  columns := List.forall_mem_cons.mpr ⟨⟨⟨by decide, by decide⟩, by decide⟩,
    List.forall_mem_cons.mpr ⟨⟨⟨by decide, by decide⟩, by decide⟩,
      List.forall_mem_singleton.mpr ⟨⟨by decide, by decide⟩, by decide⟩⟩⟩
  relations := List.forall_mem_cons.mpr ⟨⟨⟨by decide, by decide⟩, by decide⟩,
    List.forall_mem_singleton.mpr ⟨⟨by decide, by decide⟩, by decide⟩⟩
  indices := List.forall_mem_singleton.mpr ⟨⟨by decide, by decide⟩, by decide⟩

/-- The files of a post; its model applies decorators for an index, for columns and for relations. -/
theorem taken_post : IsLineEnding postJob.platform ∧ postJob.eol = .ok .lf ∧ postJob.TakesAll .lf ∧
    ∃ names text, (postJob.entityDraft .model post).text = .ok text ∧
      Takes postJob .lf .model (Job.entityScope ⟨post.forModel, []⟩)
        ["Index", "Entity", "Generated", "Column", "Column", "ManyToOne", "JoinColumn", "OneToMany"]
        names text := by
  have htakes : postJob.TakesAll .lf := decorators_taken (.inl rfl) rfl
  obtain ⟨text, htext⟩ := htakes.made.1 .model (by decide) post fun _ => jsonValued_post
  obtain ⟨names, hnames⟩ := htakes.entity .model post ⟨post.forModel, []⟩ text rfl htext
  have happlied : Source.appliedBy .model ⟨post.forModel, []⟩ =
      ["Index", "Entity", "Generated", "Column", "Column", "ManyToOne", "JoinColumn", "OneToMany"] := by
    decide +kernel
  exact ⟨.inl rfl, rfl, htakes, names, text, htext, happlied ▸ hnames⟩

/-! ## Schema texts -/

/-- The text of the type of a column, which reads as an import of nothing. -/
def importingType : String := "import \x7b\x7d from \"@ApiProperty(\""

/-- A document with an entity that has a column of this type. -/
def importingDocument : Entries :=
  [(.text "entities", .list [.map
    [(.text "tscName", .text "user"),
     (.text "columns", .list [.map [(.text "tscName", .text "key"), (.text "tscType", .text importingType),
       (.text "generated", .text "uuid")]])]])]

/-- The lines behind the first import of the data transfer object that is made of it. -/
def importingLines : Lines :=
  ["", "export class UserDto \x7b", "", "    @ApiPropertyOptional()",
   "    key?: import \x7b\x7d from \"@ApiProperty(\";", "\x7d"]

/-- What is left of them. -/
def importedLines : Lines :=
  ["", "export class UserDto \x7b", "", "    @ApiPropertyOptional()", "    key?: \x7d"]

theorem removeEmptyChars_importingLines :
    Source.removeEmptyChars (joinLines "\n" importingLines).toList = (joinLines "\n" importedLines).toList := by
  simp only [importingLines, importedLines, Source.toList_joinLines_cons]
  decide +kernel

/-- The first lines apply the decorator, those that are left of them do not. -/
theorem application_infix_importingLines :
    application "ApiProperty".toList <:+: (joinLines "\n" importingLines).toList ∧
      ¬ application "ApiProperty".toList <:+: (joinLines "\n" importedLines).toList := by
  have hline := Source.oneLine_application (n := "ApiProperty") (by decide)
  have hne := Source.application_ne_nil "ApiProperty".toList
  have hp : IsLineEnding "\n" := .inl rfl
  rw [Source.infix_joinLines_iff hp hline hne, Source.infix_joinLines_iff hp hline hne]
  decide +kernel

/-- The names that the first lines make use of. -/
def importedNames : List String :=
  Source.usedNames (decoratorsOf .dto) (joinLines "\n" importingLines).toList

theorem mem_importedNames : "ApiProperty" ∈ importedNames :=
  (Source.mem_usedNames (by decide)).mpr ⟨by decide, .inl application_infix_importingLines.1⟩

/-- The names are taken before the import of nothing is removed. -/
theorem finishChars_importingLines :
    finishChars true (recast .lf "\n" (joinLines "\n" (Source.importLine
      "\x7bApiProperty,ApiPropertyOptional\x7d" "@nestjs/swagger" :: importingLines)).toList) =
      importOf .lf .dto importedNames ++ (joinLines "\n" importedLines).toList := by
  have hfirst : Source.importLine "\x7bApiProperty,ApiPropertyOptional\x7d" "@nestjs/swagger" =
      (Source.taken (Source.joined (decoratorsOf .dto)) (Source.packageOf .dto)).line := by
    rw [← Source.importLine_taken]
    decide +kernel
  have hnames : importedNames ≠ [] := List.ne_nil_of_mem mem_importedNames
  have hmade := Source.finishChars_offered (Source.offered .dto) true .lf
    (joinLines "\n" importingLines).toList
  rw [if_neg (fun h => hnames h.2), if_pos rfl, removeEmptyChars_importingLines] at hmade
  have hsame : "\n" = Eol.lf.sequence := rfl
  rw [recast, if_pos hsame, Source.toList_joinLines_cons, hfirst, importOf, if_neg hnames,
    List.append_assoc]
  exact hmade

/-- **A data transfer object can import a decorator that it does not apply.** The column of an accepted
    document applies it within an import of nothing, which is removed from the text. -/
theorem exists_taken_unapplied : ∃ (w : Workspace) (doc : Entries) (es : List Entity) (o : Options)
    (job : Job) (e : Entity) (text : String) (names : List String) (rest : List Char),
    (Schema.readDocument w.platform doc).result = .ok (es, o) ∧ prepare w es o.settings = .ok job ∧
      e ∈ es ∧ (job.entityDraft .dto e).text = .ok text ∧
      text.toList = importOf .lf .dto names ++ rest ∧ "ApiProperty" ∈ names ∧
      ¬ Used Source.baseClass.toList rest "ApiProperty".toList := by
  have hread : ((Schema.readDocument "\n" importingDocument).result.toOption.bind fun read =>
      (prepare (.ofDisk ⟨[]⟩) read.1 read.2.settings).toOption.bind fun job =>
        read.1.head?.map fun e => (job.platform, job.eol.toOption,
          Source.dtoLines job.policy job.entityFiles e.forDto)) =
      some ("\n", some .lf,
        Source.importLine "\x7bApiProperty,ApiPropertyOptional\x7d" "@nestjs/swagger" :: importingLines) := by
    decide +kernel
  obtain ⟨⟨es, o⟩, hdoc, hread⟩ := Option.bind_eq_some_iff.mp hread
  obtain ⟨job, hjob, hread⟩ := Option.bind_eq_some_iff.mp hread
  obtain ⟨e, he, hread⟩ := Option.map_eq_some_iff.mp hread
  obtain ⟨hplatform, heol, hlines⟩ : job.platform = "\n" ∧ job.eol.toOption = some .lf ∧ _ := by
    simpa only [Prod.mk.injEq] using hread
  have htext := job.text_dto e
  rw [finished_ok (Results.eq_ok_of_toOption heol) (by decide), hlines, hplatform] at htext
  refine ⟨.ofDisk ⟨[]⟩, importingDocument, es, o, job, e, _, importedNames,
    (joinLines "\n" importedLines).toList, Results.eq_ok_of_toOption hdoc,
    Results.eq_ok_of_toOption hjob, List.mem_of_head? he, htext, ?_, mem_importedNames, ?_⟩
  · rw [String.toList_ofList]
    exact finishChars_importingLines
  · rintro (happlied | ⟨hbase, -⟩)
    · exact application_infix_importingLines.2 happlied
    · exact absurd hbase (by decide)

end Scaffold.Generation
