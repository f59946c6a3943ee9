import Scaffold.Yaml.Graph

/-!
# `Scaffold.Yaml.Graph.Merge` — the merge keys of a mapping

The key `<<` names a mapping, or a list of mappings, whose entries go in front of those of its own
mapping. What is merged stays merged: the graph is changed, so that whoever looks at the mapping
later finds the merged entries. A mapping may be merged into itself.

## Contents
- **Merging.** `Action.merge`, with `mergeFrom` for one mapping from an entry on and `named` for what
  a merge key names.
- **Fuel.** `Graph.mergeFuel`.
-/

namespace Scaffold.Yaml

namespace Action

mutual

/-- Merges into the mapping at a place what its merge keys name. -/
def merge : (fuel : Nat) → (place : Nat) → Action Unit
  | 0, _ => throw .malformed
  | n + 1, place => do
    let front ← mergeFrom n place 0
    setEntries place (front ++ (← entries place))

/-- Takes the merge keys out of the mapping at a place, from the entry `index` on, and gives the
    entries that they bring in. Other keys `=` become texts. -/
def mergeFrom : (fuel : Nat) → (place index : Nat) → Action (List (Nat × Nat))
  | 0, _, _ => throw .malformed
  | n + 1, place, index => do
    let es ← entries place
    let g ← get
    let before := (es.drop index).takeWhile fun (k, _) => (g.nodeAt k).tag ≠ .merge
    before.forM fun (k, _) => asText k
    let here := index + before.length
    match es.drop here with
    | [] => return []
    | (_, v) :: r =>
      setEntries place (es.take here ++ r)
      let front ← named n v
      return front ++ (← mergeFrom n place here)

/-- The entries of the mapping, or of the mappings of the list, that a merge key names. Of a list
    the entries of the last mapping come first. -/
def named : (fuel : Nat) → (place : Nat) → Action (List (Nat × Nat))
  | 0, _ => throw .malformed
  | n + 1, place => do
    match (← get).nodeAt place with
    | .mapping _ _ =>
      merge n place
      entries place
    | .sequence _ items =>
      let parts ← items.mapM fun item => do
        match (← get).nodeAt item with
        | .mapping _ _ =>
          merge n item
          entries item
        | _ => throw .malformed
      return parts.reverse.flatten
    | .scalar _ _ => throw .malformed

end

end Action

/-- Fuel that suffices for merging: no step goes deeper without taking out a merge key. -/
def Graph.mergeFuel (g : Graph) : Nat := 4 * g.foldl (fun n node => n + node.entries.length) 2

end Scaffold.Yaml
