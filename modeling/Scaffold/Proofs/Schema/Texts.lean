import Scaffold.Projection

/-!
# `Scaffold.Proofs.Schema.Texts` — the texts that an entity is made of

Names, types, defaults, and what the options of decorators hold at any depth, keys included. What is
true of all of them is told part by part (`Entity.forall_texts` and its siblings), and what a projection
leaves of an entity brings no text of its own (`texts_forModel_subset`, `texts_forDto_subset`).

## Contents
- **Values.** `Value.texts`.
- **Parts.** `JoinColumn.texts`, `JoinTable.texts`, `Column.texts`, `Relation.texts`, `Index.texts`.
- **Entities.** `Entity.texts`, `texts_forModel_subset`, `texts_forDto_subset`.
-/

namespace Scaffold

/-! ## Values -/

namespace Value

mutual

/-- The texts of a value, with the keys of its mappings. -/
def texts : Value → List String
  | .text s => [s]
  | .list xs => textsOfList xs
  | .set xs => textsOfList xs
  | .map es => textsOfEntries es
  | .pair a b => texts a ++ texts b
  | .knot _ v => texts v
  | _ => []

/-- The texts of the values of a list. -/
def textsOfList : List Value → List String
  | [] => []
  | x :: xs => texts x ++ textsOfList xs

/-- The texts of keys and values. -/
def textsOfEntries : List (Value × Value) → List String
  | [] => []
  | (k, v) :: es => texts k ++ texts v ++ textsOfEntries es

end

end Value

namespace Schema

/-! ## Parts -/

/-- The texts of a join column. -/
def JoinColumn.texts (j : JoinColumn) : List String := j.name :: j.referenced.toList

/-- The texts of a join table. -/
def JoinTable.texts (t : JoinTable) : List String :=
  t.name :: (t.joinColumns ++ t.inverseColumns).flatMap JoinColumn.texts

/-- The texts of a column. -/
def Column.texts (c : Column) : List String :=
  [c.name, c.type, c.dbType] ++ c.default.toList ++ (Value.map c.options).texts

/-- The texts of a relation. -/
def Relation.texts (r : Relation) : List String :=
  [r.related, r.field] ++ r.inverse.toList ++ (r.joinColumns.getD []).flatMap JoinColumn.texts ++
    r.joinTable.toList.flatMap JoinTable.texts ++ (Value.map r.options).texts

/-- The texts of an index. -/
def Index.texts (i : Index) : List String := i.name :: i.columns ++ (Value.map i.options).texts

section Parts

variable {P : String → Prop}

theorem JoinColumn.forall_texts {j : JoinColumn} :
    (∀ s ∈ j.texts, P s) ↔ P j.name ∧ ∀ s ∈ j.referenced, P s := by
  simp only [JoinColumn.texts, List.forall_mem_cons, Option.mem_toList, Option.mem_def]

theorem JoinTable.forall_texts {t : JoinTable} :
    (∀ s ∈ t.texts, P s) ↔ P t.name ∧ (∀ j ∈ t.joinColumns, ∀ s ∈ j.texts, P s) ∧
      ∀ j ∈ t.inverseColumns, ∀ s ∈ j.texts, P s := by
  simp only [JoinTable.texts, List.forall_mem_cons, List.forall_mem_flatMap, List.forall_mem_append]

theorem Column.forall_texts {c : Column} :
    (∀ s ∈ c.texts, P s) ↔ P c.name ∧ P c.type ∧ P c.dbType ∧ (∀ s ∈ c.default, P s) ∧
      ∀ s ∈ (Value.map c.options).texts, P s := by
  simp only [Column.texts, List.forall_mem_append, List.forall_mem_cons, List.not_mem_nil,
    false_imp_iff, implies_true, Option.mem_toList, Option.mem_def, and_assoc, true_and]

theorem Relation.forall_texts {r : Relation} :
    (∀ s ∈ r.texts, P s) ↔ P r.related ∧ P r.field ∧ (∀ s ∈ r.inverse, P s) ∧
      (∀ j ∈ r.joinColumns.getD [], ∀ s ∈ j.texts, P s) ∧ (∀ t ∈ r.joinTable, ∀ s ∈ t.texts, P s) ∧
      ∀ s ∈ (Value.map r.options).texts, P s := by
  simp only [Relation.texts, List.forall_mem_append, List.forall_mem_cons, List.not_mem_nil,
    false_imp_iff, implies_true, List.forall_mem_flatMap, Option.mem_toList, Option.mem_def,
    and_assoc, true_and]

theorem Index.forall_texts {i : Index} :
    (∀ s ∈ i.texts, P s) ↔ P i.name ∧ (∀ s ∈ i.columns, P s) ∧
      ∀ s ∈ (Value.map i.options).texts, P s := by
  simp only [Index.texts, List.forall_mem_append, List.forall_mem_cons, and_assoc]

end Parts

/-! ## Entities -/

namespace Entity

/-- **The texts of an entity.** -/
def texts (e : Entity) : List String :=
  [e.name, e.fileName, e.table] ++ e.database.toList ++ e.schema.toList ++
    e.columns.flatMap Column.texts ++ e.relations.flatMap Relation.texts ++
    e.indices.flatMap Index.texts

theorem forall_texts {P : String → Prop} {e : Entity} :
    (∀ s ∈ e.texts, P s) ↔ (P e.name ∧ P e.fileName ∧ P e.table ∧ (∀ s ∈ e.database, P s) ∧
      ∀ s ∈ e.schema, P s) ∧ (∀ c ∈ e.columns, ∀ s ∈ c.texts, P s) ∧
      (∀ r ∈ e.relations, ∀ s ∈ r.texts, P s) ∧ ∀ i ∈ e.indices, ∀ s ∈ i.texts, P s := by
  simp only [texts, List.forall_mem_append, List.forall_mem_cons, List.not_mem_nil, false_imp_iff,
    implies_true, List.forall_mem_flatMap, Option.mem_toList, Option.mem_def, and_assoc, true_and]

/-- A projection that keeps names, indices, and some columns and relations brings no text. -/
theorem texts_subset {e : Entity} {columns : List Column} {relations : List Relation}
    (hcolumns : columns ⊆ e.columns) (hrelations : relations ⊆ e.relations) :
    { e with columns := columns, relations := relations }.texts ⊆ e.texts := by
  obtain ⟨hnames, hc, hr, hi⟩ := forall_texts.mp fun s (hs : s ∈ e.texts) => hs
  exact forall_texts.mpr
    ⟨hnames, fun c h => hc c (hcolumns h), fun r h => hr r (hrelations h), hi⟩

theorem texts_forModel_subset (e : Entity) : e.forModel.texts ⊆ e.texts :=
  texts_subset List.filter_sublist.subset (List.Subset.refl _)

theorem texts_forDto_subset (e : Entity) : e.forDto.texts ⊆ e.texts :=
  texts_subset List.filter_sublist.subset List.filter_sublist.subset

end Entity

end Schema

end Scaffold
