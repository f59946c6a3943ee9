import Scaffold.Proofs.Results
import Scaffold.Source.Model

/-!
# `Scaffold.Proofs.Source.Parts` — models taken apart

A model has lines just if its indices, its columns and its relations have, and these then stand in one
frame. What is said of all lines of a model is shown of each part and of the frame.

## Contents
- **Options.** `optionsArgument_eq_ok`.
- **Models.** `modelOf`, `modelLines_eq_ok`.
-/

namespace Scaffold.Source

open Naming (Policy literal)
open Schema (Entity)

variable {p : Policy} {common : String} {files : EntityFiles} {e : Entity} {ls : Lines}

theorem optionsArgument_eq_ok {options : Entries} {s : String} :
    optionsArgument options = .ok s ↔
      options.isEmpty = true ∧ "" = s ∨
      options.isEmpty = false ∧ ∃ o, literal (.map options) = .ok o ∧ ", " ++ braced o = s := by
  unfold optionsArgument
  cases options.isEmpty with
  | true => simp
  | false => simp [Results.map_eq_ok]

/-- A model from the lines of its indices, columns and relations. -/
def modelOf (p : Policy) (common : String) (files : EntityFiles) (e : Entity) (indices : Lines)
    (columns relations : List Lines) : Lines :=
  [importLine modelDecorators "typeorm", importLine "\x7bBaseModel\x7d" (common ++ "/base.model")] ++
    relatedImports p files .model p.modelName e ++ [""] ++ indices ++
    [entityLine e, classHead p (p.modelName e.name) ++ " extends BaseModel \x7b"] ++
    columns.flatten ++ relations.flatten ++ ["\x7d"]

/-- **A model has lines just if all its parts have**, which it is put together from then. -/
theorem modelLines_eq_ok :
    modelLines p common files e = .ok ls ↔ ∃ indices columns relations,
      e.indices.mapM (indexLine p) = .ok indices ∧ e.columns.mapM (columnLines p) = .ok columns ∧
      e.relations.mapM (relationLines p) = .ok relations ∧
      modelOf p common files e indices columns relations = ls := by
  unfold modelLines
  constructor
  · intro h
    obtain ⟨indices, hindices, h⟩ := Results.bind_eq_ok.mp h
    obtain ⟨columns, hcolumns, h⟩ := Results.bind_eq_ok.mp h
    obtain ⟨relations, hrelations, h⟩ := Results.bind_eq_ok.mp h
    cases h
    exact ⟨indices, columns, relations, hindices, hcolumns, hrelations, rfl⟩
  · rintro ⟨indices, columns, relations, hindices, hcolumns, hrelations, rfl⟩
    rw [hindices, hcolumns, hrelations]
    rfl

end Scaffold.Source
