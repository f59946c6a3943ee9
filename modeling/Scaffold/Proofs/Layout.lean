import Scaffold.Layout
import Scaffold.Proofs.Disk.Path

/-!
# `Scaffold.Proofs.Layout` — the directories of kinds

The directory of a kind is the root or lies in it (`directory_eq`), so that the way from one kind to
another does not depend on the root (`importPrefix_eq`). Walked from the directory of the first kind,
it leads to that of the second (`normalFrom_importPrefix`).

## Contents
- **Kinds.** `cases_entityKind`, `eq_of_not_entityKind`.
- **Directories.** `below`, `directory_eq`, `isPart_below`.
- **Ways.** `importPrefix_eq`, `normalFrom_importPrefix`.
-/

namespace Scaffold.Layout

open Disk (IsPart Path partsOf)

/-! ## Kinds -/

theorem cases_entityKind {a : Artifact} (h : a ∈ entityKinds) :
    a = .model ∨ a = .dto ∨ a = .service ∨ a = .controller := by
  simpa [entityKinds] using h

/-- The kinds that are not made per entity. -/
theorem eq_of_not_entityKind {a : Artifact} (ha : a ∉ entityKinds) : a = .module ∨ a = .index := by
  cases a with
  | module => exact .inl rfl
  | index => exact .inr rfl
  | model => exact absurd (by decide) ha
  | dto => exact absurd (by decide) ha
  | service => exact absurd (by decide) ha
  | controller => exact absurd (by decide) ha

/-! ## Directories -/

/-- The part of a kind's directory that lies below the root. -/
def below (flat : Bool) (a : Artifact) : Path :=
  if flat then [] else (subdirectory? a).toList

theorem directory_eq (l : Layout) (a : Artifact) : l.directory a = l.root ++ below l.flat a := by
  unfold directory below
  cases l.flat with
  | true => exact (List.append_nil l.root).symm
  | false =>
      cases subdirectory? a with
      | some name => rfl
      | none => exact (List.append_nil l.root).symm

theorem isPart_below (flat : Bool) (a : Artifact) : ∀ s ∈ below flat a, IsPart s ∧ s ≠ ".." := by
  cases flat <;> cases a <;> decide

/-! ## Ways -/

/-- The way between two directories does not depend on the root. -/
theorem importPrefix_eq (l : Layout) (a b : Artifact) :
    l.importPrefix a b = Path.moduleFrom (below l.flat a) (below l.flat b) := by
  unfold importPrefix Path.moduleFrom Path.wayFrom
  rw [directory_eq, directory_eq, Disk.split_append]

theorem normalFrom_importPrefix (l : Layout) (a b : Artifact) :
    Path.normalFrom (l.directory a) (partsOf (l.importPrefix a b)) = l.directory b := by
  refine Disk.normalFrom_moduleFrom ?_
  rw [directory_eq, directory_eq, Disk.split_append]
  generalize l.flat = flat
  cases flat <;> cases a <;> cases b <;> decide

end Scaffold.Layout
