import Scaffold.Proofs.Generation.Agreement
import Scaffold.Proofs.Source.Kept

/-!
# `Scaffold.Proofs.Generation.Methods` — the methods that the controllers of a job declare

The controller of an entity declares five methods and one for each of its relations to many, and two of
them have the same name in one case only: where names are in camel case, and such a relation is called
`all` or `one` (`methods_distinct_iff`). The names are those of the lines that the template gives, and can
be read from the finished file where nothing of the schema breaks out of these lines.

That case is not ruled out by what a schema must fulfil (`exists_accepted_doubled`).

## Contents
- **Names.** `Job.methodNames`, `Job.DeclaresMethods`.
- **Texts.** `Job.Enclosed`, `methods_controller`.
- **The theorem.** `methods_distinct_iff`, `methods_team`.
- **Equal names.** `exists_accepted_doubled`.
-/

namespace Scaffold.Generation

open Naming (Quotable)
open Schema (Entity Options)
open Source (Callable Clashes HasMethods Statement methods)
open Text (Eol IsLineEnding)

variable {j : Job} {e : Entity}

/-! ## Names -/

/-- The methods of the controller of an entity, in order. -/
def Job.methodNames (j : Job) (e : Entity) : List String :=
  Source.methodNames j.policy e.oneToMany

/-- The lines of the controller of an entity declare its methods. -/
def Job.DeclaresMethods (j : Job) (e : Entity) : Prop :=
  ∃ ls, j.entityLines .controller ⟨e, e.oneToMany⟩ = .ok ls ∧ HasMethods ls (j.methodNames e)

/-! ## Texts -/

/-- Nothing of an entity breaks out of the lines of its controller: the converted names, the name of the
    table, and the names of relations where they are left as they are. -/
structure Job.Enclosed (j : Job) (e : Entity) : Prop where
  name : Quotable (j.policy.entityBase e.name)
  file : Quotable (j.policy.fileStem e.fileName)
  table : Quotable e.table
  fields : j.policy.propertyCase = .verbatim → ∀ r ∈ e.oneToMany, Quotable r.field ∧ Callable r.field

/-- **The methods of a controller are read from its text.** -/
theorem methods_controller (h : j.Enclosed e) (hplatform : IsLineEnding j.platform) {eol : Eol}
    (heol : j.eol = .ok eol) :
    ∃ text, (j.entityDraft .controller e).text = .ok text ∧ methods text = j.methodNames e := by
  have hstatements : ∀ s ∈ Source.controllerStatements j.policy
      (j.layout.importPrefix .controller .service) (j.layout.importPrefix .controller .dto) e,
      s.Plain ∧ s.clause.Substantial := by
    have hway := isWay_importPrefix j.layout .controller
    have hservice := isReference_statement (hway .service) (a := .service) (by decide) h.name h.file
    have hdto := isReference_statement (hway .dto) (a := .dto) (by decide) h.name h.file
    exact List.forall_mem_cons.mpr ⟨⟨hservice.plain, hservice.substantial⟩,
      List.forall_mem_singleton.mpr ⟨hdto.plain, hdto.substantial⟩⟩
  have hbraceless : j.policy.propertyCase = .verbatim →
      ∀ r ∈ e.oneToMany, Source.Braceless r.field :=
    fun hcase r hr => Source.braceless_of_quotable (h.fields hcase r hr).1
  have hcallable : ∀ n ∈ j.methodNames e, Callable n :=
    Source.callable_methodNames fun hcase r hr => (h.fields hcase r hr).2
  obtain ⟨ls, hlines, hkept⟩ :=
    Source.exists_kept_controllerLines hstatements h.name h.table hbraceless
  have hmethods := Source.methods_hasMethods (Source.hasMethods_controllerLines j.policy
    (j.layout.importPrefix .controller .service) (j.layout.importPrefix .controller .dto) e e.oneToMany)
    hcallable
  obtain ⟨ss, hread⟩ := Source.exists_linesOf_finishChars (e := eol) hplatform
    Source.Taken.controller hkept (Artifact.controller ≠ .model)
  refine ⟨_, (j.text_controller e).trans (finished_ok heol (by decide) _), ?_⟩
  -- neither the import that was pruned nor what stands in its place opens a method
  have hnone : (ss.map Statement.line).filterMap (fun l => Source.method? l.toList) = [] :=
    List.filterMap_eq_nil_iff.mpr (List.forall_mem_map.mpr fun s _ => Source.method?_line s)
  rw [hlines] at hmethods ⊢
  simp only [List.filterMap_cons, Source.method?_line] at hmethods
  rw [methods, String.toList_ofList, hread, filterMap_lines rfl, List.filterMap_append, hnone,
    List.nil_append]
  exact hmethods

/-! ## The theorem -/

/-- **The methods of a controller are distinct** exactly if the properties of its relations to many are,
    and none of these is called `all` or `one` while names are in camel case: for all entities and all
    conventions. The lines of the controller declare them, and where nothing of the entity breaks out of
    these lines, they are read from the text of the file. -/
theorem methods_distinct_iff (j : Job) (e : Entity) :
    ((j.methodNames e).Nodup ↔ (j.routeNames e).Nodup ∧ ∀ r ∈ e.oneToMany, ¬ Clashes j.policy r) ∧
      j.DeclaresMethods e ∧
      (j.Enclosed e → IsLineEnding j.platform → ∀ eol, j.eol = .ok eol →
        ∃ text, (j.entityDraft .controller e).text = .ok text ∧ methods text = j.methodNames e) :=
  ⟨Source.nodup_methodNames_iff j.policy e.oneToMany,
    ⟨_, rfl, Source.hasMethods_controllerLines _ _ _ _ _⟩,
    fun h hplatform _ heol => methods_controller h hplatform heol⟩

theorem enclosed_team (names : List String) : (teamJob names).Enclosed (team names) where
  name := (by decide +kernel : Quotable (Naming.CaseStyle.convert .pascal "team"))
  file := (by decide +kernel : Quotable (Naming.CaseStyle.convert .pascal "team"))
  table := (by decide : Quotable "team")
  fields hcase := absurd hcase (by decide : Naming.CaseStyle.camel ≠ .verbatim)

/-- The controller of a team with users and posts has a method for each of them. -/
theorem methods_team : ∃ text,
    ((teamJob ["user", "post"]).entityDraft .controller (team ["user", "post"])).text = .ok text ∧
      methods text = ["findAll", "findOne", "findUser", "findPost", "create", "update", "remove"] ∧
      (methods text).Nodup := by
  obtain ⟨hdistinct, -, hread⟩ := methods_distinct_iff (teamJob ["user", "post"]) (team ["user", "post"])
  obtain ⟨text, htext, hmethods⟩ := hread (enclosed_team _) (.inl rfl) .lf rfl
  have hnames : (teamJob ["user", "post"]).methodNames (team ["user", "post"]) =
      ["findAll", "findOne", "findUser", "findPost", "create", "update", "remove"] := by
    decide +kernel
  refine ⟨text, htext, hmethods.trans hnames, ?_⟩
  rw [hmethods]
  exact hdistinct.mpr (by decide +kernel)

/-! ## Equal names -/

/-- **An accepted document can give a controller two methods of one name.** A team whose relation is
    called `all` has properties of different names, and `findAll` twice. -/
theorem exists_accepted_doubled : ∃ (w : Workspace) (doc : Entries) (es : List Entity) (o : Options)
    (job : Job) (e : Entity) (text : String),
    (Schema.readDocument w.platform doc).result = .ok (es, o) ∧ prepare w es o.settings = .ok job ∧
      e ∈ es ∧ (job.routeNames e).Nodup ∧ (job.entityDraft .controller e).text = .ok text ∧
      methods text = ["findAll", "findOne", "findAll", "create", "update", "remove"] ∧
      ¬ (methods text).Nodup := by
  have hnames : Schema.repeated ((teamEntities ["all"]).map Entity.name) = [] := by decide +kernel
  have hdoc : (Schema.readDocument "\n" (teamDocument ["all"])).result =
      .ok (teamEntities ["all"], Options.standard "\n") :=
    Schema.readDocument_of_combine hnames (Schema.read_nil "\n") rfl
  have heol : (teamJob ["all"]).eol = .ok .lf := rfl
  obtain ⟨text, htext, hmethods⟩ := methods_controller (enclosed_team ["all"]) (.inl rfl) heol
  have hdoubled : (teamJob ["all"]).methodNames (team ["all"]) =
      ["findAll", "findOne", "findAll", "create", "update", "remove"] := by
    decide +kernel
  rw [hdoubled] at hmethods
  refine ⟨.ofDisk ⟨[]⟩, teamDocument ["all"], teamEntities ["all"], Options.standard "\n",
    teamJob ["all"], team ["all"], text, hdoc, prepare_team ["all"],
    List.mem_append_right _ List.mem_cons_self, by decide +kernel, htext, hmethods, ?_⟩
  rw [hmethods]
  decide

end Scaffold.Generation
