import Scaffold.Proofs.Generation.Endings
import Scaffold.Proofs.Source.Members

/-!
# `Scaffold.Proofs.Generation.Agreement` — the files of a run agree on the names of properties

A model, a data transfer object and a controller are made from three views of an entity, and the model
of one entity refers to properties in the model of another. All of them call a property the same:
what a controller passes on and reads, what a data transfer object declares, and what a model refers
back to is declared by a model (`properties_agree`).

The lines of the files say so whatever they hold. Where names and types break no line, and a name that
is left as it is holds no mark of a declaration, it can be read from the rendered texts as well.

## Contents
- **Names.** `Job.properties`, `propertyNames_forDto_subset`, `Job.routeNames`, `routeNames_subset`,
  `mem_properties_inverse`.
- **Texts.** `Job.rendering`, `linesOf_rendering`, `filterMap_lines`.
- **The theorem.** `Job.Agreement`, `Job.ReadableAgreement`, `properties_agree`.
- **An author and posts.** `mutualJob`, `agreement_mutual`.
-/

namespace Scaffold.Generation

open Schema (Entity Options Relation)
open Source (IsClass Legible Lines RefersBack RenderFault filled? joinLines members passed?
  propertyNames result?)
open Text (Eol IsLine linesOf)

/-! ## Names -/

variable {j : Job} {e : Entity}

/-- The properties that the model of an entity declares. -/
def Job.properties (j : Job) (e : Entity) : List String := propertyNames j.policy e.forModel

/-- A model has all properties that a data transfer object has. -/
theorem propertyNames_forDto_subset (p : Naming.Policy) (e : Entity) :
    propertyNames p e.forDto ⊆ propertyNames p e.forModel := by
  intro n hn
  rcases List.mem_append.mp hn with hn | hn
  · obtain ⟨c, hc, rfl⟩ := List.mem_map.mp hn
    obtain ⟨hmem, hkeep⟩ := List.mem_filter.mp hc
    have hplain : c ∈ e.forModel.columns :=
      List.mem_filter.mpr ⟨hmem, (Bool.and_eq_true_iff.mp hkeep).1⟩
    exact List.mem_append_left _ (List.mem_map.mpr ⟨c, hplain, rfl⟩)
  · obtain ⟨r, hr, rfl⟩ := List.mem_map.mp hn
    exact List.mem_append_right _ (List.mem_map.mpr ⟨r, (List.mem_filter.mp hr).1, rfl⟩)

/-- The properties that a controller has routes for. -/
def Job.routeNames (j : Job) (e : Entity) : List String :=
  e.oneToMany.map fun r => j.policy.propertyName r.field

/-- A model has the properties of all relations that a controller has routes for. -/
theorem routeNames_subset (j : Job) (e : Entity) : j.routeNames e ⊆ j.properties e := by
  intro n hn
  obtain ⟨r, hr, rfl⟩ := List.mem_map.mp hn
  exact List.mem_append_right _ (List.mem_map.mpr ⟨r, (List.mem_filter.mp hr).1, rfl⟩)

/-- What names a relation of an entity, or a column outside its key, names a property of its model. -/
theorem mem_properties_inverse {i : String}
    (h : i ∈ e.relations.map Relation.field ∨ i ∈ e.plainColumns.map Schema.Column.name) :
    j.policy.propertyName i ∈ j.properties e := by
  rcases h with h | h
  · obtain ⟨r, hr, rfl⟩ := List.mem_map.mp h
    exact List.mem_append_right _ (List.mem_map.mpr ⟨r, hr, rfl⟩)
  · obtain ⟨c, hc, rfl⟩ := List.mem_map.mp h
    exact List.mem_append_left _ (List.mem_map.mpr ⟨c, hc, rfl⟩)

/-! ## Texts -/

/-- The text that the template of a kind gives for what it sees of an entity. -/
def Job.rendering (j : Job) (a : Artifact) (p : Projection) : Except RenderFault String :=
  (Source.Template.ofArtifact a).render j.policy (j.scopeOf a p) j.platform

theorem rendering_of_lines {a : Artifact} {p : Projection} {ls : Lines}
    (h : j.entityLines a p = .ok ls) : j.rendering a p = .ok (joinLines j.platform ls) := by
  show (j.entityLines a p).map (joinLines j.platform) = _
  rw [h]
  rfl

/-- The lines of a rendered text are those that its template gives, and a blank one. -/
theorem linesOf_rendering (h : j.Unbroken) {eol : Eol} (heol : j.platform = eol.sequence)
    (he : e ∈ j.entities) {a : Artifact} (ha : a ∈ Layout.entityKinds) {p : Projection}
    (hp : project? e a = some p) {ls : Lines} (hls : j.entityLines a p = .ok ls) :
    linesOf (joinLines j.platform ls).toList = ls.map String.toList ++ [[]] := by
  have hlines := Source.linesOf_joinLines (e := eol) (isLine_entityLines h ha he hp hls) []
  rw [List.append_nil] at hlines
  rw [heol, hlines]
  rfl

theorem filterMap_lines {f : List Char → Option String} (hblank : f [] = none) (ls : Lines) :
    (ls.map String.toList ++ [[]]).filterMap f = ls.filterMap fun l => f l.toList := by
  rw [List.filterMap_append, List.filterMap_cons_none hblank, List.filterMap_nil, List.append_nil,
    List.filterMap_map]
  rfl

/-! ## The theorem -/

/-- **The files of a job agree on the names of properties**, whatever their lines hold. -/
structure Job.Agreement (j : Job) : Prop where
  /-- The model of an entity that consists of JSON values has lines. -/
  rendered : ∀ e, JsonValued e → ∃ ls, j.entityLines .model ⟨e.forModel, []⟩ = .ok ls
  /-- A model declares the properties of its entity. -/
  model : ∀ (e : Entity) ls, j.entityLines .model ⟨e.forModel, []⟩ = .ok ls →
    IsClass j.policy ls (j.properties e)
  /-- A data transfer object declares properties that the model declares. -/
  dto : ∀ e, propertyNames j.policy e.forDto ⊆ j.properties e ∧
    ∃ ls, j.entityLines .dto ⟨e.forDto, []⟩ = .ok ls ∧
      IsClass j.policy ls (propertyNames j.policy e.forDto)
  /-- A controller passes on and reads properties that the model declares. -/
  controller : ∀ e, j.routeNames e ⊆ j.properties e ∧
    ∃ ls, j.entityLines .controller ⟨e, e.oneToMany⟩ = .ok ls ∧
      ls.filterMap (fun l => passed? l.toList) = j.routeNames e ∧
      ls.filterMap (fun l => result? l.toList) = j.routeNames e
  /-- A model refers back, along each relation that says so, to a property of that name. -/
  refers : ∀ (e : Entity) ls, j.entityLines .model ⟨e.forModel, []⟩ = .ok ls → ∀ r ∈ e.relations,
    ∀ i, filled? r.inverse = some i → ∃ l ∈ ls, RefersBack j.policy r (j.policy.propertyName i) l
  /-- What it refers to is declared by the model of the related entity, if the name is that of a
      relation or of a column outside the key there. -/
  inverse : ∀ e : Entity, ∀ r ∈ e.relations, ∀ i, filled? r.inverse = some i →
    ∀ b ∈ j.entities, b.name = r.related →
      (i ∈ b.relations.map Relation.field ∨ i ∈ b.plainColumns.map Schema.Column.name) →
      j.policy.propertyName i ∈ j.properties b

/-- **The names of properties are read from the rendered texts.** -/
structure Job.ReadableAgreement (j : Job) : Prop where
  model : ∀ e ∈ j.entities, ∀ text, j.rendering .model ⟨e.forModel, []⟩ = .ok text →
    members text = j.properties e
  dto : ∀ e ∈ j.entities, ∃ text, j.rendering .dto ⟨e.forDto, []⟩ = .ok text ∧
    members text = propertyNames j.policy e.forDto
  controller : ∀ e ∈ j.entities, ∃ text, j.rendering .controller ⟨e, e.oneToMany⟩ = .ok text ∧
    Source.passed text = j.routeNames e ∧ Source.results text = j.routeNames e
  refers : ∀ e ∈ j.entities, ∀ text, j.rendering .model ⟨e.forModel, []⟩ = .ok text →
    ∀ r ∈ e.relations, ∀ i, filled? r.inverse = some i →
      ∃ l ∈ linesOf text.toList, RefersBack j.policy r (j.policy.propertyName i) (String.ofList l)

theorem agreement (j : Job) : j.Agreement where
  rendered e he := by
    obtain ⟨ls, hls⟩ := exists_modelLines j.policy j.common j.entityFiles he.forModel
    exact ⟨ls, by rw [Job.lines_model, ← Job.common, hls]; rfl⟩
  model e ls hls := Source.isClass_modelLines (modelLines_of_entityLines hls)
  dto e := ⟨propertyNames_forDto_subset j.policy e, _, j.lines_dto e, Source.isClass_dtoLines _ _ _⟩
  controller e := ⟨routeNames_subset j e, _, rfl, Source.passed_controllerLines _ _ _ _ _,
    Source.results_controllerLines _ _ _ _ _⟩
  refers e ls hls r hr i hi := Source.exists_refersBack (modelLines_of_entityLines hls) hr hi
  inverse e r hr i hi b hb hname hnamed := mem_properties_inverse hnamed

/-- The names of properties are legible, unless they are left as they are and were not before. -/
theorem legible_properties (h : j.policy.propertyCase = .verbatim → ∀ n ∈ j.properties e, Legible n) :
    ∀ n ∈ j.properties e, Legible n := by
  by_cases hcase : j.policy.propertyCase = .verbatim
  · exact h hcase
  · intro n hn
    rcases List.mem_append.mp hn with hn | hn
    · obtain ⟨c, -, rfl⟩ := List.mem_map.mp hn
      exact Source.legible_propertyName fun hverbatim => absurd hverbatim hcase
    · obtain ⟨r, -, rfl⟩ := List.mem_map.mp hn
      exact Source.legible_propertyName fun hverbatim => absurd hverbatim hcase

theorem readableAgreement (h : j.Unbroken) {eol : Eol} (heol : j.platform = eol.sequence)
    (hnames : ∀ e ∈ j.entities, ∀ n ∈ j.properties e, Legible n) : j.ReadableAgreement := by
  have hall := agreement j
  constructor
  · intro e he text htext
    obtain ⟨ls, hls, rfl⟩ := Results.map_eq_ok.mp htext
    rw [members, linesOf_rendering h heol he (by decide) rfl hls, filterMap_lines rfl]
    exact Source.members_isClass (hall.model e ls hls) (hnames e he)
  · intro e he
    obtain ⟨hsub, ls, hls, hclass⟩ := hall.dto e
    refine ⟨_, rendering_of_lines hls, ?_⟩
    rw [members, linesOf_rendering h heol he (by decide) rfl hls, filterMap_lines rfl]
    exact Source.members_isClass hclass fun n hn => hnames e he n (hsub hn)
  · intro e he
    obtain ⟨-, ls, hls, hpassed, hresults⟩ := hall.controller e
    have hlines := linesOf_rendering h heol he (by decide) rfl hls
    refine ⟨_, rendering_of_lines hls, ?_, ?_⟩
    · rw [Source.passed, hlines, filterMap_lines rfl, hpassed]
    · rw [Source.results, hlines, filterMap_lines rfl, hresults]
  · intro e he text htext r hr i hi
    obtain ⟨ls, hls, rfl⟩ := Results.map_eq_ok.mp htext
    obtain ⟨l, hl, hrefers⟩ := hall.refers e ls hls r hr i hi
    rw [linesOf_rendering h heol he (by decide) rfl hls]
    refine ⟨l.toList, List.mem_append_left _ (List.mem_map_of_mem hl), ?_⟩
    rw [String.ofList_toList]
    exact hrefers

/-- **Property names agree across the generated files**, for all entities and all conventions. A
    controller passes on and reads names of properties that the model of its entity declares; a data
    transfer object declares only such; and what a model refers back to, if it names a relation or a
    column outside the key of the related entity, is declared by the model there. If nothing breaks a
    line, and names are not left as they are where they hold marks, this is read from the texts. -/
theorem properties_agree (j : Job) : j.Agreement ∧
    (j.Unbroken → ∀ eol : Eol, j.platform = eol.sequence →
      (j.policy.propertyCase = .verbatim → ∀ e ∈ j.entities, ∀ n ∈ j.properties e, Legible n) →
      j.ReadableAgreement) :=
  ⟨agreement j, fun h _ heol hnames => readableAgreement h heol fun e he =>
    legible_properties fun hcase => hnames hcase e he⟩

/-! ## An author and posts -/

/-- The relation of an author to posts. -/
def writtenPosts : Relation := ⟨.oneToMany, "post", "written_posts", some "author", none, none, []⟩

/-- The relation of a post to its author. -/
def writer : Relation := ⟨.manyToOne, "author", "author", some "written_posts", none, none, []⟩

/-- The job of a run over authors and posts, on an empty disk. -/
def mutualJob : Job :=
  jobOf (.ofDisk ⟨[]⟩)
    [{ bareEntity "author" with relations := [writtenPosts] },
     { bareEntity "post" with relations := [writer] }]
    (Options.standard "\n") (Schema.legal_standard "\n") ["output"]

theorem unbroken_related {name : String} (hname : IsLine name) {r : Relation} (hr : r.Unbroken) :
    Entity.Unbroken { bareEntity name with relations := [r] } where
  name := hname
  fileName := hname
  table := hname
  database := nofun
  schema := nofun
  columns := nofun
  relations := List.forall_mem_singleton.mpr hr
  indices := nofun

theorem unbroken_mutual : mutualJob.Unbroken where
  entities := by
    have hwritten : writtenPosts.Unbroken :=
      ⟨by decide, by decide, fun s hs => by cases hs; decide, nofun, nofun⟩
    have hwriter : writer.Unbroken :=
      ⟨by decide, by decide, fun s hs => by cases hs; decide, nofun, nofun⟩
    exact List.forall_mem_cons.mpr ⟨unbroken_related (by decide) hwritten,
      List.forall_mem_singleton.mpr (unbroken_related (by decide) hwriter)⟩
  module := by decide +kernel

/-- The controller of authors asks for what their model declares, and the model of posts refers back to
    it. -/
theorem agreement_mutual : ∃ a b, mutualJob.entities = [a, b] ∧
    (∃ text, mutualJob.rendering .controller ⟨a, a.oneToMany⟩ = .ok text ∧
      Source.passed text = ["writtenPosts"]) ∧
    (∃ text, mutualJob.rendering .model ⟨a.forModel, []⟩ = .ok text ∧
      members text = ["writtenPosts"]) ∧
    ∃ text, mutualJob.rendering .model ⟨b.forModel, []⟩ = .ok text ∧
      ∃ l ∈ linesOf text.toList,
        RefersBack mutualJob.policy writer "writtenPosts" (String.ofList l) := by
  refine ⟨_, _, rfl, ?_⟩
  obtain ⟨hall, hread⟩ := properties_agree mutualJob
  have hreadable := hread unbroken_mutual .lf rfl nofun
  have hempty : Json.IsJson Json.writeLimit (.map []) := ⟨⟨by decide, by decide⟩, by decide⟩
  have hrendered : ∀ name r, r.options = [] → ∃ ls, mutualJob.entityLines .model
      ⟨Entity.forModel { bareEntity name with relations := [r] }, []⟩ = .ok ls :=
    fun name r hr => hall.rendered _
      { columns := nofun, indices := nofun, relations := List.forall_mem_singleton.mpr (hr ▸ hempty) }
  obtain ⟨ls, hls⟩ := hrendered "author" writtenPosts rfl
  obtain ⟨ls', hls'⟩ := hrendered "post" writer rfl
  have hname : mutualJob.policy.propertyName "written_posts" = "writtenPosts" := by decide +kernel
  refine ⟨?_, ⟨_, rendering_of_lines hls, ?_⟩, _, rendering_of_lines hls', ?_⟩
  · obtain ⟨text, htext, hpassed, -⟩ := hreadable.controller _ List.mem_cons_self
    refine ⟨text, htext, hpassed.trans ?_⟩
    show [mutualJob.policy.propertyName "written_posts"] = _
    rw [hname]
  · rw [hreadable.model _ List.mem_cons_self _ (rendering_of_lines hls)]
    show [mutualJob.policy.propertyName "written_posts"] = _
    rw [hname]
  · rw [← hname]
    exact hreadable.refers _ (List.mem_cons_of_mem _ List.mem_cons_self) _ (rendering_of_lines hls')
      writer List.mem_cons_self _ rfl

end Scaffold.Generation
