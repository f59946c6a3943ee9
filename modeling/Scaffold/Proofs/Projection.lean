import Scaffold.Projection

/-!
# `Scaffold.Proofs.Projection` — laws of projections

The columns of an entity fall into three groups: those of its key, those through which it refers to
another entity, and those that its data transfer object keeps. A model keeps the last two. Which
columns the object leaves out is told by relations that it leaves out as well; so when it is projected
again, nothing is left that they could take out, and nothing that would tell. Hence projections may be
repeated, and may follow each other in either order (`project_lawful`).

## Contents
- **Lists.** `Interleaved`, `interleaved_filter`.
- **Groups of columns.** `Entity.RefersThrough`, `keyColumns`, `referringColumns`,
  `mem_joinColumnNames`, `interleaved_key`, `interleaved_referring`.
- **Repetition.** `joinColumnNames_forDto`, `forModel_forModel`, `forDto_forDto`, `forDto_forModel`,
  `forModel_forDto`.
- **The laws.** `Entity.Lawful`, `project_lawful`.
-/

namespace Scaffold

open Schema (Column Entity Relation)

/-! ## Lists -/

/-- **A list that is put together from two others**: each of them keeps its order, and every member of
    the whole is taken from one of them, once. -/
inductive Interleaved {α : Type} : (first second whole : List α) → Prop
  | nil : Interleaved [] [] []
  | first (x : α) {xs ys zs : List α} (h : Interleaved xs ys zs) : Interleaved (x :: xs) ys (x :: zs)
  | second (y : α) {xs ys zs : List α} (h : Interleaved xs ys zs) :
      Interleaved xs (y :: ys) (y :: zs)

/-- What a test accepts and what it refuses make up a list. -/
theorem interleaved_filter {α : Type} (p : α → Bool) (xs : List α) :
    Interleaved (xs.filter p) (xs.filter fun x => !p x) xs := by
  induction xs with
  | nil => exact .nil
  | cons x xs ih =>
      cases hx : p x with
      | true =>
          rw [List.filter_cons_of_pos hx, List.filter_cons_of_neg (by simp [hx])]
          exact .first x ih
      | false =>
          rw [List.filter_cons_of_neg (by simp [hx]), List.filter_cons_of_pos (by simp [hx])]
          exact .second x ih

namespace Schema.Entity

/-! ## Groups of columns -/

/-- A relation of many entities to one goes through a column of this name. -/
def RefersThrough (e : Entity) (name : String) : Prop :=
  ∃ r ∈ e.relations, r.cardinality = .manyToOne ∧ ∃ js ∈ r.joinColumns, ∃ j ∈ js, j.name = name

theorem mem_joinColumnNames {e : Entity} {name : String} :
    name ∈ e.joinColumnNames ↔ e.RefersThrough name := by
  have hnames : ∀ r : Relation,
      name ∈ r.joinColumnNames ↔ ∃ js ∈ r.joinColumns, ∃ j ∈ js, j.name = name := by
    intro r
    unfold Relation.joinColumnNames
    cases r.joinColumns <;> simp
  unfold joinColumnNames relationsOf RefersThrough
  simp only [List.mem_flatMap, List.mem_filter, decide_eq_true_eq, hnames, and_assoc]

instance (e : Entity) (name : String) : Decidable (e.RefersThrough name) :=
  decidable_of_iff _ mem_joinColumnNames

/-- The columns of the key. -/
def keyColumns (e : Entity) : List Column := e.columns.filter Column.primary

/-- The columns that refer to another entity and do not belong to the key. -/
def referringColumns (e : Entity) : List Column :=
  e.columns.filter fun c => !c.primary && decide (e.RefersThrough c.name)

theorem columns_forDto (e : Entity) : e.forDto.columns =
    e.columns.filter fun c => !c.primary && !decide (e.RefersThrough c.name) := by
  refine List.filter_congr fun c _ => ?_
  rw [List.contains_eq_mem, decide_eq_decide.mpr mem_joinColumnNames]

theorem interleaved_key (e : Entity) : Interleaved e.keyColumns e.forModel.columns e.columns :=
  interleaved_filter Column.primary e.columns

/-- What a model keeps, its data transfer object keeps too, but for the columns that refer to another
    entity. -/
theorem interleaved_referring (e : Entity) :
    Interleaved e.referringColumns e.forDto.columns e.forModel.columns := by
  have hsplit := interleaved_filter (fun c => decide (e.RefersThrough c.name)) e.forModel.columns
  have hgroup : ∀ p : Column → Bool,
      e.forModel.columns.filter p = e.columns.filter fun c => !c.primary && p c := by
    intro p
    refine (List.filter_filter ..).trans (List.filter_congr fun c _ => Bool.and_comm ..)
  rw [hgroup, hgroup] at hsplit
  rw [columns_forDto]
  exact hsplit

/-! ## Repetition -/

variable (e : Entity)

/-- **What told the columns to leave out is left out itself.** -/
theorem joinColumnNames_forDto : e.forDto.joinColumnNames = [] := by
  have hnone : e.forDto.relationsOf .manyToOne = [] := by
    refine List.filter_eq_nil_iff.mpr fun r hr => ?_
    have hmany : r.cardinality = .oneToMany := by
      simpa using (List.mem_filter.mp hr).2
    simp [hmany]
  unfold joinColumnNames
  rw [hnone]
  rfl

theorem forModel_forModel : e.forModel.forModel = e.forModel := by
  unfold forModel plainColumns
  simp only [List.filter_filter, Bool.and_self]

theorem forDto_forModel : e.forModel.forDto = e.forDto := by
  have hnames : e.forModel.joinColumnNames = e.joinColumnNames := rfl
  have hcolumns : e.forModel.forDto.columns = e.forDto.columns := by
    refine (List.filter_filter ..).trans (List.filter_congr fun c _ => ?_)
    rw [hnames]
    cases c.primary <;> simp
  calc e.forModel.forDto
      = { e with columns := e.forModel.forDto.columns, relations := e.oneToMany } := rfl
    _ = e.forDto := by rw [hcolumns]; rfl

theorem forModel_forDto : e.forDto.forModel = e.forDto := by
  have hcolumns : e.forDto.plainColumns = e.forDto.columns := by
    refine List.filter_eq_self.mpr fun c hc => ?_
    have hkept := (List.mem_filter.mp hc).2
    simp only [Bool.and_eq_true] at hkept
    exact hkept.1
  unfold forModel
  rw [hcolumns]

theorem forDto_forDto : e.forDto.forDto = e.forDto := by
  have hcolumns : e.forDto.forDto.columns = e.forDto.forModel.columns := by
    refine List.filter_congr fun c _ => ?_
    rw [joinColumnNames_forDto]
    simp
  have hrelations : e.forDto.oneToMany = e.forDto.relations := by
    refine List.filter_eq_self.mpr fun r hr => ?_
    exact (List.mem_filter.mp hr).2
  rw [forModel_forDto] at hcolumns
  calc e.forDto.forDto
      = { e.forDto with columns := e.forDto.forDto.columns, relations := e.forDto.oneToMany } := rfl
    _ = e.forDto := by rw [hcolumns, hrelations]

/-! ## The laws -/

/-- **What the projections of an entity are**, for its model, its data transfer object, its service and
    its controller. -/
structure Lawful (model dto service controller : Projection) : Prop where
  /-- The columns are those of the key and those of the model, -/
  columns : Interleaved e.keyColumns model.entity.columns e.columns
  /-- and those of the model the ones that refer to another entity and those that are sent. -/
  modelColumns : Interleaved e.referringColumns dto.entity.columns model.entity.columns
  modelRelations : model.entity.relations = e.relations
  dtoRelations : dto.entity.relations = e.relations.filter fun r => r.cardinality = .oneToMany
  controllerRelations : controller.oneToMany = dto.entity.relations
  modelTwice : project? model.entity .model = some model
  dtoTwice : project? dto.entity .dto = some dto
  dtoOfModel : project? model.entity .dto = some dto
  modelOfDto : project? dto.entity .model = some dto
  /-- No projection touches more than columns and relations, -/
  rest : ∀ p ∈ [model, dto, service, controller],
    { p.entity with columns := e.columns, relations := e.relations } = e
  /-- and those for services and controllers not even these. -/
  whole : ∀ p ∈ [service, controller], p.entity = e

/-- **Projections obey their laws**, whatever columns and relations the entity has: join columns of
    several relations, columns of the key that refer to another entity, and names of no column. -/
theorem project_lawful : ∃ model dto service controller, project? e .model = some model ∧
    project? e .dto = some dto ∧ project? e .service = some service ∧
    project? e .controller = some controller ∧ e.Lawful model dto service controller := by
  refine ⟨⟨e.forModel, []⟩, ⟨e.forDto, []⟩, ⟨e, []⟩, ⟨e, e.oneToMany⟩, rfl, rfl, rfl, rfl, ?_⟩
  exact {
    columns := e.interleaved_key
    modelColumns := e.interleaved_referring
    modelRelations := rfl
    dtoRelations := rfl
    controllerRelations := rfl
    modelTwice := congrArg (fun f => some (Projection.mk f [])) e.forModel_forModel
    dtoTwice := congrArg (fun f => some (Projection.mk f [])) e.forDto_forDto
    dtoOfModel := congrArg (fun f => some (Projection.mk f [])) e.forDto_forModel
    modelOfDto := congrArg (fun f => some (Projection.mk f [])) e.forModel_forDto
    rest := by simp [forModel, forDto]
    whole := by simp }

end Schema.Entity

end Scaffold
