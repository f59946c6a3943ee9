import Scaffold.Yaml.Graph.Merge
import Scaffold.Yaml.Graph.Reader
import Scaffold.Yaml.Scalar
import Scaffold.Yaml.Token.Lexer

/-!
# `Scaffold.Yaml.Document` — the value of a YAML document

Every node has one value, whatever the number of its references. Values are made level by level: a
collection is *met* first and *filled* when all that was met before it has been filled, so of two
faults the one nearer to the root comes first. When all cells are filled they are read back from the
root; a collection that holds itself becomes a knot.

## Contents
- **Cells.** `Cell`, `Making`: what the nodes have been found to be.
- **Meeting.** `scalarText`, `meet`.
- **Filling.** `fill`, `fillAll`, `cellsOf`.
- **Reading back.** `valueAt`.
- **Texts.** `read`: the value of a whole text.
-/

namespace Scaffold.Yaml

/-! ## Cells -/

/-- What a node has been found to be. A collection names its parts by their nodes. -/
inductive Cell
  | whole (v : Value)
  | list (items : List Nat)
  | pairs (items : List (Nat × Nat))
  | set (items : List Nat)
  | map (entries : List (Nat × Nat))

/-- The cells made so far, by the places of their nodes, and the collections that are to be filled,
    the last one first. -/
structure Making where
  graph : Graph
  cells : Array (Option Cell)
  due : List Nat := []

/-- A step of making cells. -/
abbrev Maker (α : Type) := StateT Making (Except Failure) α

/-- The node at a place. -/
def nodeAt (place : Nat) : Maker Node := return (← get).graph.nodeAt place

/-- The cell at a place, if it has been met. -/
def cellAt? (place : Nat) : Maker (Option Cell) := return ((← get).cells.getD place none)

/-- Puts a cell at a place. -/
def putCell (place : Nat) (c : Cell) : Maker Unit :=
  modify fun m => { m with cells := m.cells.setIfInBounds place (some c) }

/-- Puts a collection at a place that is to be filled later. -/
def putLater (place : Nat) (c : Cell) : Maker Unit := do
  putCell place c
  modify fun m => { m with due := place :: m.due }

/-! ## Meeting -/

/-- The text of a node that is read as a scalar. A mapping has the text of its key `=`. -/
def scalarText (g : Graph) : (fuel : Nat) → Node → Except Failure String
  | 0, _ => .error .endless
  | _, .scalar _ text => .ok text
  | n + 1, .mapping _ es =>
    match es.find? fun (k, _) => (g.nodeAt k).tag = .default with
    | some (_, v) => scalarText g n (g.nodeAt v)
    | none => .error .malformed
  | _, .sequence _ _ => .error .malformed

/-- The text of the node at a place that is read as a scalar. -/
def textAt (g : Graph) (place : Nat) : Except Failure String :=
  scalarText g (g.size + 1) (g.nodeAt place)

/-- The value of a node with the tag of a scalar. A time has to be written as a scalar. -/
def scalarValue (g : Graph) (place : Nat) : Except Failure Value := do
  let node := g.nodeAt place
  let text ← textAt g place
  match node.tag, node with
  | .timestamp, .mapping _ _ => throw .timeOfParts
  | tag, _ => tag.read text

/-- Makes the cell of a node that has none yet. Collections are filled later. -/
def meet (place : Nat) : Maker Unit := do
  match ← cellAt? place with
  | some _ => return ()
  | none =>
    let g := (← get).graph
    match (g.nodeAt place).tag with
    | .seq => putLater place (.list [])
    | .pairs => putLater place (.pairs [])
    | .set => putLater place (.set [])
    | .map => putLater place (.map [])
    | .merge | .default | .unknown => throw .malformed
    | _ =>
      match scalarValue g place with
      | .ok v => putCell place (.whole v)
      | .error f => throw f

/-! ## Filling -/

/-- The value of a node that may be a key; collections may not. -/
def keyAt (place : Nat) : Maker Value := do
  match ← cellAt? place with
  | some (.whole v) => return v
  | _ => throw .malformed

/-- Two keys are one for a mapping: they are the same node, or equal. The number that is none equals
    itself only where it is written by its name. -/
def sameEntryKey (g : Graph) (a b : Nat × Value) : Bool :=
  let named (place : Nat) := ((textAt g place).toOption.map isNamedNan).getD false
  a.1 == b.1 || a.2.sameKey b.2 ||
    match a.2, b.2 with
    | .float .nan, .float .nan => named a.1 && named b.1
    | _, _ => false

/-- Puts an entry behind others, the last one first. A known key keeps its place. -/
def putEntry (g : Graph) (es : List ((Nat × Value) × Nat)) (key : Nat × Value) (value : Nat) :
    List ((Nat × Value) × Nat) :=
  if es.any fun (k, _) => sameEntryKey g k key then
    es.map fun (k, v) => if sameEntryKey g k key then (k, value) else (k, v)
  else (key, value) :: es

/-- Meets keys and values one after another; the result are the entries, each key once. -/
def meetEntries : List (Nat × Nat) → (before : List ((Nat × Value) × Nat)) →
    Maker (List (Nat × Nat))
  | [], before => return before.reverse.map fun ((k, _), v) => (k, v)
  | (k, v) :: r, before => do
    meet k
    let key ← keyAt k
    meet v
    meetEntries r (putEntry (← get).graph before (k, key) v)

/-- The entries of the mapping at a place, merge keys being resolved. -/
def mergedEntries (fuel place : Nat) : Maker (List (Nat × Nat)) := do
  let m ← get
  match (Action.merge fuel place).run m.graph with
  | .error f => throw f
  | .ok ((), g) =>
    set { m with graph := g }
    meetEntries (g.nodeAt place).entries []

/-- The only entry of a mapping, key and value being met. -/
def meetPair (place : Nat) : Maker (Nat × Nat) := do
  match ← nodeAt place with
  | .mapping _ [(k, v)] =>
    meet k
    meet v
    return (k, v)
  | _ => throw .malformed

/-- Fills the collection at a place. `fuel` is what merging needs. -/
def fill (fuel place : Nat) : Maker Unit := do
  match ← nodeAt place with
  | .sequence .seq items =>
    items.forM meet
    putCell place (.list items)
  | .sequence .pairs items => putCell place (.pairs (← items.mapM meetPair))
  | .mapping .set _ =>
    let es ← mergedEntries fuel place
    putCell place (.set (es.map (·.1)))
  | .mapping .map _ => putCell place (.map (← mergedEntries fuel place))
  | _ => throw .malformed

/-- Fills what is due, and what becomes due by that. -/
def fillAll (mergeFuel : Nat) : (fuel : Nat) → Maker Unit
  | 0 => return ()
  | n + 1 => do
    let places := (← get).due.reverse
    if places.isEmpty then return ()
    modify fun m => { m with due := [] }
    places.forM (fill mergeFuel)
    fillAll mergeFuel n

/-- The cells of a graph, from its root on. -/
def cellsOf (root : Nat) (g : Graph) : Except Failure (Array (Option Cell)) := do
  let start : Making := { graph := g, cells := Array.replicate g.size none }
  let ((), m) ← (do meet root; fillAll g.mergeFuel (g.size + 1) : Maker Unit).run start
  return m.cells

/-! ## Reading back -/

/-- A value that was read back, with the places around it that it refers to. -/
abbrev Part := Value × List Nat

/-- The values of nodes that are on no cycle, as far as they are known. -/
abbrev Known := Array (Option Value)

/-- What becomes of a collection. If it refers to places around itself, or to itself, it is on a
    cycle and becomes a knot. -/
def close (place : Nat) (v : Value) (free : List Nat) : StateM Known Part := do
  if free.isEmpty then
    modify fun known => known.setIfInBounds place (some v)
    return (v, [])
  else return (.knot place v, free.eraseDups.filter (· ≠ place))

/-- Where a place stands inside itself. -/
def againAt (place : Nat) : Cell → Part
  | .map _ => (.again place true, [place])
  | _ => (.again place false, [place])

/-- The value at a place that lies inside the places `around`. -/
def valueAt (cells : Array (Option Cell)) : (fuel : Nat) → (around : List Nat) → (place : Nat) →
    StateM Known Part
  | 0, _, _ => return (.null, [])
  | n + 1, around, place => do
    match cells.getD place none, (← get).getD place none with
    | none, _ => return (.null, [])
    | some (.whole v), _ => return (v, [])
    | _, some v => return (v, [])
    | some c, none =>
      if around.contains place then return againAt place c
      let part := valueAt cells n (place :: around)
      let both (e : Nat × Nat) : StateM Known ((Value × Value) × List Nat) := do
        let (k, kf) ← part e.1
        let (v, vf) ← part e.2
        return ((k, v), kf ++ vf)
      match c with
      | .whole v => return (v, [])
      | .list items =>
        let parts ← items.mapM part
        close place (.list (parts.map (·.1))) (parts.flatMap (·.2))
      | .set items =>
        let parts ← items.mapM part
        close place (.set (parts.map (·.1))) []
      | .map entries =>
        let parts ← entries.mapM both
        close place (.map (parts.map (·.1))) (parts.flatMap (·.2))
      | .pairs items =>
        let parts ← items.mapM both
        close place (.list (parts.map fun ((a, b), _) => .pair a b)) (parts.flatMap (·.2))

/-! ## Texts -/

/-- The value that a text spells; an empty text is nothing. -/
def read (text : String) : Except Failure Value := do
  let cs := text.toList
  if !cs.all isReadable then throw .malformed
  match ← Graph.ofTokens? (Lexer.tokens cs) with
  | none => return .null
  | some (root, g) =>
    let cells ← cellsOf root g
    return ((valueAt cells (g.size + 1) [] root).run (Array.replicate g.size none)).1.1

end Scaffold.Yaml
