import Scaffold.Yaml.Tag
import Scaffold.Yaml.Token

/-!
# `Scaffold.Yaml.Graph` — the nodes of a YAML document

A node is a scalar, a sequence or a mapping, each with its tag. A reference stands for the very node
that its anchor names, and may even stand inside that node. So the nodes of a document form a graph:
a collection names its parts by their places among all nodes.

## Contents
- **Nodes.** `Node`, `Graph`, `Graph.nodeAt`.
- **Actions.** `Action`: steps that change the graph, with `entries`, `setEntries`, `asText`.
-/

namespace Scaffold.Yaml

/-! ## Nodes -/

/-- A node; its parts are given by their places in the graph. -/
inductive Node
  | scalar (tag : Tag) (text : String)
  | sequence (tag : Tag) (items : List Nat)
  | mapping (tag : Tag) (entries : List (Nat × Nat))
  deriving Repr

namespace Node

/-- What stands where nothing is written. -/
def empty : Node := .scalar .null ""

/-- The tag of a node. -/
def tag : Node → Tag
  | .scalar t _ => t
  | .sequence t _ => t
  | .mapping t _ => t

/-- The node under another tag. -/
def withTag (tag : Tag) : Node → Node
  | .scalar _ text => .scalar tag text
  | .sequence _ items => .sequence tag items
  | .mapping _ entries => .mapping tag entries

/-- The entries of a mapping; other nodes have none. -/
def entries : Node → List (Nat × Nat)
  | .mapping _ es => es
  | _ => []

end Node

/-- The nodes of a document. -/
abbrev Graph := Array Node

/-- The node at a place. -/
def Graph.nodeAt (g : Graph) (place : Nat) : Node := g.getD place .empty

/-! ## Actions -/

/-- A step that may change the graph, and may meet a failure. -/
abbrev Action (α : Type) := StateT Graph (Except Failure) α

namespace Action

/-- The entries of the mapping at a place. -/
def entries (place : Nat) : Action (List (Nat × Nat)) := return ((← get).nodeAt place).entries

/-- Gives the mapping at a place other entries. -/
def setEntries (place : Nat) (es : List (Nat × Nat)) : Action Unit :=
  modify fun g => g.modify place fun node => .mapping node.tag es

/-- Makes the key at a place a text if it is the key `=`. -/
def asText (place : Nat) : Action Unit :=
  modify fun g => g.modify place fun node =>
    if node.tag = .default then node.withTag .str else node

end Action

end Scaffold.Yaml
