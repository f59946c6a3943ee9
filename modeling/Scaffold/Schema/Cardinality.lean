import Scaffold.Choice

/-!
# `Scaffold.Schema.Cardinality` — how many entities a relation joins

## Contents
- **Cardinalities.** `Cardinality`, `Cardinality.isToMany`.
-/

namespace Scaffold.Schema

/-- How many entities stand on either side of a relation. -/
inductive Cardinality
  | oneToOne
  | oneToMany
  | manyToOne
  | manyToMany
  deriving DecidableEq, Repr

instance : Choice Cardinality where
  all := [.oneToOne, .oneToMany, .manyToOne, .manyToMany]
  name
    | .oneToOne => "OneToOne"
    | .oneToMany => "OneToMany"
    | .manyToOne => "ManyToOne"
    | .manyToMany => "ManyToMany"
  label := "RelationType"

namespace Cardinality

/-- The name of a cardinality, which is also its decorator. -/
def name (c : Cardinality) : String := Choice.name c

/-- Many entities stand on the other side. -/
def isToMany : Cardinality → Bool
  | .oneToMany => true
  | .manyToMany => true
  | _ => false

end Cardinality

end Scaffold.Schema
