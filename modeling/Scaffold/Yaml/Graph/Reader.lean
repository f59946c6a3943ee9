import Scaffold.Yaml.Graph

/-!
# `Scaffold.Yaml.Graph.Reader` — the graph of a YAML document

The reader goes through the tokens once. A place is taken for a collection before its parts are
read, so that references inside it find it.

## Contents
- **Anchors and handles.** `Draft`, `Reader`, `Properties`.
- **Reading.** `readNode` and the parts of collections.
- **Documents.** `Graph.ofTokens?`: the one document of a text.
-/

namespace Scaffold.Yaml

namespace Graph

/-! ## Anchors and handles -/

/-- The nodes read so far, the places of those that have an anchor, and how many collections are
    open. -/
structure Draft where
  nodes : Graph := #[]
  anchors : List (String × Nat) := []
  depth : Nat := 0

/-- A reading step: it may meet a fault, and adds nodes. -/
abbrev Reader (α : Type) := StateT Draft (Except Failure) α

/-- Adds a node; the result is its place. -/
def addNode (node : Node) : Reader Nat :=
  modifyGet fun d => (d.nodes.size, { d with nodes := d.nodes.push node })

/-- Puts a node at a place that was taken for it. -/
def putNode (place : Nat) (node : Node) : Reader Unit :=
  modify fun d => { d with nodes := d.nodes.setIfInBounds place node }

/-- The tokens do not go on as they have to. -/
def unexpected {α : Type} : List Token → Reader α
  | .fault f :: _ => throw f
  | _ => throw .malformed

/-- The next token is looked at; it must not be a fault. -/
def look : List Token → Reader Unit
  | .fault f :: _ => throw f
  | _ => return ()

/-- The handles of tags with what they stand for. -/
abbrev Handles := List (String × String)

/-- The handles that need no directive. -/
def defaultHandles : Handles := [("!", "!"), ("!!", Tag.root)]

/-- Anchor and tag in front of a node. -/
structure Properties where
  anchor : Option String
  tag : Option (Option String × String)

/-- Anchor and tag at the front, in either order. Behind a single one the next token is looked at,
    since it may be the other. -/
def readProperties : List Token → Reader (Properties × List Token)
  | .anchor a :: .tag h s :: r => return (⟨some a, some (h, s)⟩, r)
  | .anchor a :: r => do
    look r
    return (⟨some a, none⟩, r)
  | .tag h s :: .anchor a :: r => return (⟨some a, some (h, s)⟩, r)
  | .tag h s :: r => do
    look r
    return (⟨none, some (h, s)⟩, r)
  | r => return (⟨none, none⟩, r)

/-- The whole name of a tag. A handle has to be known. -/
def fullName (handles : Handles) : Option (Option String × String) → Reader (Option String)
  | none => pure none
  | some (none, suffix) => pure (some suffix)
  | some (some handle, suffix) =>
    match handles.lookup handle with
    | some root => pure (some (root ++ suffix))
    | none => throw .malformed

/-- The tag under a name; without one, or under `!`, the tag is found by other means. -/
def tagOr (found : Tag) : Option String → Tag
  | none => found
  | some name => if name = "!" then found else Tag.ofUri name

/-- The tag of a scalar. Quoted texts are texts, unless `!` says otherwise. -/
def scalarTag (name : Option String) (text : String) (plain : Bool) : Tag :=
  if name = none ∧ !plain then .str else tagOr (Tag.ofPlain text) name

/-- An anchor must be new. -/
def checkAnchor (anchor : Option String) : Reader Unit := do
  match anchor with
  | none => pure ()
  | some a => if ((← get).anchors.lookup a).isSome then throw .malformed

/-- Gives a place an anchor. -/
def setAnchor (anchor : Option String) (place : Nat) : Reader Unit :=
  match anchor with
  | none => pure ()
  | some a => modify fun d => { d with anchors := (a, place) :: d.anchors }

/-- Adds a node that may have an anchor. -/
def addAnchored (anchor : Option String) (node : Node) : Reader Nat := do
  let place ← addNode node
  setAnchor anchor place
  return place

/-- How many collections may be open at a time. -/
def depthLimit : Nat := 487

/-- Reads the inside of a collection. -/
def nested {α : Type} (read : Reader α) : Reader α := do
  if depthLimit ≤ (← get).depth then throw .endless
  modify fun d => { d with depth := d.depth + 1 }
  let a ← read
  modify fun d => { d with depth := d.depth - 1 }
  return a

/-- The place of the node that a reference stands for. -/
def referenced (name : String) : Reader Nat := do
  match (← get).anchors.lookup name with
  | none => throw .malformed
  | some place => return place

/-- A node where nothing is written. -/
def addEmpty : Reader Nat := addNode .empty

/-! ## Reading -/

/-- Where a node stands. As a part of a block mapping a sequence needs no indentation. -/
inductive Place
  | flow
  | block
  | blockEntry
  deriving DecidableEq

/-- The tokens after a hyphen show that no item is written. -/
def lacksItem : List Token → Bool
  | .blockEntry :: _ => true
  | .blockEnd :: _ => true
  | _ => false

/-- The tokens show that a part of a block mapping, or an item in it, is not written. -/
def lacksPart : List Token → Bool
  | .key :: _ => true
  | .value :: _ => true
  | .blockEnd :: _ => true
  | _ => false

/-- The tokens show that a part in a flow collection is not written. -/
def lacksFlowPart : List Token → Bool
  | .flowEntry :: _ => true
  | .flowSequenceEnd :: _ => true
  | .flowMappingEnd :: _ => true
  | _ => false

/-- The tokens show that a key in a flow collection is not written. -/
def lacksFlowKey (ts : List Token) : Bool :=
  lacksFlowPart ts || (match ts with | .value :: _ => true | _ => false)

mutual

/-- The node at the front. -/
def readNode (handles : Handles) : (fuel : Nat) → Place → List Token → Reader (Nat × List Token)
  | 0, _, ts => unexpected ts
  | n + 1, place, ts =>
    match ts with
    | .reference name :: r => return (← referenced name, r)
    | _ => do
      let (props, r) ← readProperties ts
      let name ← fullName handles props.tag
      look r
      checkAnchor props.anchor
      match r with
      | .scalar text plain :: r =>
        return (← addAnchored props.anchor (.scalar (scalarTag name text plain) text), r)
      | _ =>
        match collection? handles n place name r with
        | some read =>
          let own ← addAnchored props.anchor .empty
          let (node, r) ← nested read
          putNode own node
          return (own, r)
        | none =>
          if props.anchor.isSome || props.tag.isSome then
            return (← addAnchored props.anchor (.scalar (tagOr .null name) ""), r)
          else unexpected r

/-- The reading of the collection that begins at the front, if one may begin there; `name` is the
    tag that is given for it. -/
def collection? (handles : Handles) : (fuel : Nat) → Place → (name : Option String) → List Token →
    Option (Reader (Node × List Token))
  | 0, _, _, _ => none
  | n + 1, place, name, ts =>
    let seq (read : Reader (List Nat × List Token)) :=
      some do
        let (xs, r) ← read
        return (.sequence (tagOr .seq name) xs, r)
    let map (read : Reader (List (Nat × Nat) × List Token)) :=
      some do
        let (es, r) ← read
        return (.mapping (tagOr .map name) es, r)
    match ts with
    | .blockEntry :: _ => if place = .blockEntry then seq (readIndentless handles n ts) else none
    | .flowSequenceStart :: r => seq (readFlowItems handles n true r)
    | .flowMappingStart :: r => map (readFlowEntries handles n true r)
    | .blockSequenceStart :: r => if place = .flow then none else seq (readItems handles n r)
    | .blockMappingStart :: r => if place = .flow then none else map (readEntries handles n r)
    | _ => none

/-- The items of a block sequence with its end. -/
def readItems (handles : Handles) : (fuel : Nat) → List Token → Reader (List Nat × List Token)
  | 0, ts => unexpected ts
  | n + 1, ts =>
    match ts with
    | .blockEntry :: r => do
      let (x, r) ← if lacksItem r then pure (← addEmpty, r) else readNode handles n .block r
      let (xs, r) ← readItems handles n r
      return (x :: xs, r)
    | .blockEnd :: r => return ([], r)
    | _ => unexpected ts

/-- The items of a sequence that is indented as the mapping around it. -/
def readIndentless (handles : Handles) : (fuel : Nat) → List Token → Reader (List Nat × List Token)
  | 0, ts => unexpected ts
  | n + 1, ts =>
    match ts with
    | .blockEntry :: r => do
      let (x, r) ←
        if lacksItem r || lacksPart r then pure (← addEmpty, r) else readNode handles n .block r
      let (xs, r) ← readIndentless handles n r
      return (x :: xs, r)
    | _ => return ([], ts)

/-- The entries of a block mapping with its end. -/
def readEntries (handles : Handles) :
    (fuel : Nat) → List Token → Reader (List (Nat × Nat) × List Token)
  | 0, ts => unexpected ts
  | n + 1, ts =>
    match ts with
    | .key :: r => do
      let (k, r) ← if lacksPart r then pure (← addEmpty, r) else readNode handles n .blockEntry r
      let (v, r) ←
        match r with
        | .value :: r => if lacksPart r then pure (← addEmpty, r) else readNode handles n .blockEntry r
        | _ => pure (← addEmpty, r)
      let (es, r) ← readEntries handles n r
      return ((k, v) :: es, r)
    | .blockEnd :: r => return ([], r)
    | _ => unexpected ts

/-- The items of a flow sequence with its end. An item may be a single entry of a mapping. -/
def readFlowItems (handles : Handles) :
    (fuel : Nat) → (first : Bool) → List Token → Reader (List Nat × List Token)
  | 0, _, ts => unexpected ts
  | n + 1, first, ts =>
    match ts with
    | .flowSequenceEnd :: r => return ([], r)
    | _ => do
      let ts ←
        if first then pure ts
        else match ts with
          | .flowEntry :: r => pure r
          | _ => unexpected ts
      match ts with
      | .flowSequenceEnd :: r => return ([], r)
      | .key :: _ =>
        let pair ← addEmpty
        let (entry, r) ← nested (readFlowEntry handles n ts)
        putNode pair (.mapping .map [entry])
        let (xs, r) ← readFlowItems handles n false r
        return (pair :: xs, r)
      | _ =>
        let (x, r) ← readNode handles n .flow ts
        let (xs, r) ← readFlowItems handles n false r
        return (x :: xs, r)

/-- The entries of a flow mapping with its end. A key alone has no value. -/
def readFlowEntries (handles : Handles) :
    (fuel : Nat) → (first : Bool) → List Token → Reader (List (Nat × Nat) × List Token)
  | 0, _, ts => unexpected ts
  | n + 1, first, ts =>
    match ts with
    | .flowMappingEnd :: r => return ([], r)
    | _ => do
      let ts ←
        if first then pure ts
        else match ts with
          | .flowEntry :: r => pure r
          | _ => unexpected ts
      match ts with
      | .flowMappingEnd :: r => return ([], r)
      | .key :: _ =>
        let (entry, r) ← readFlowEntry handles n ts
        let (es, r) ← readFlowEntries handles n false r
        return (entry :: es, r)
      | _ =>
        let (k, r) ← readNode handles n .flow ts
        let v ← addEmpty
        let (es, r) ← readFlowEntries handles n false r
        return ((k, v) :: es, r)

/-- Key and value of an entry in a flow collection. -/
def readFlowEntry (handles : Handles) :
    (fuel : Nat) → List Token → Reader ((Nat × Nat) × List Token)
  | 0, ts => unexpected ts
  | n + 1, ts =>
    match ts with
    | .key :: r => do
      let (k, r) ← if lacksFlowKey r then pure (← addEmpty, r) else readNode handles n .flow r
      let (v, r) ←
        match r with
        | .value :: r => if lacksFlowPart r then pure (← addEmpty, r) else readNode handles n .flow r
        | _ => pure (← addEmpty, r)
      return ((k, v), r)
    | _ => unexpected ts

end

/-! ## Documents -/

/-- The directives at the front. There may be one version, which must be 1, and one of each
    handle. -/
def readDirectives (version : Bool) (handles : Handles) :
    List Token → Except Failure (Handles × List Token)
  | .directive d :: r =>
    match d with
    | .version major =>
      if version || major != 1 then .error .malformed else readDirectives true handles r
    | .handle name uri =>
      if (handles.lookup name).isSome then .error .malformed
      else readDirectives version (handles.concat (name, uri)) r
    | .unknown => readDirectives version handles r
  | ts => .ok (handles ++ defaultHandles, ts)

/-- Nothing but the end may follow the document. -/
def checkEnd (ts : List Token) : Except Failure Unit :=
  let rest := ts.dropWhile fun t => match t with | .documentEnd => true | _ => false
  match rest with
  | .streamEnd :: _ => .ok ()
  | _ =>
    match readDirectives false [] rest with
    | .ok (_, .fault f :: _) => .error f
    | .ok _ => .error .malformed
    | .error f => .error f

/-- The document begins without marks. -/
def beginsBare : List Token → Bool
  | .directive _ :: _ => false
  | .documentStart :: _ => false
  | .streamEnd :: _ => false
  | _ => true

/-- After the mark of its start, the document holds nothing. -/
def isBlank : List Token → Bool
  | .documentEnd :: _ => true
  | ts => !beginsBare ts

/-- The one document that the tokens hold, its root node and its nodes; none if there is nothing. -/
def ofTokens? (ts : List Token) : Except Failure (Option (Nat × Graph)) := do
  let fuel := 4 * ts.length + 4
  let content (handles : Handles) (ts : List Token) : Except Failure (Option (Nat × Graph)) := do
    let ((root, r), draft) ← (readNode handles fuel .block ts).run {}
    checkEnd r
    return some (root, draft.nodes)
  match ts with
  | .streamEnd :: _ => return none
  | _ =>
    if beginsBare ts then content defaultHandles ts
    else
      let (handles, ts) ← readDirectives false [] ts
      match ts with
      | .documentStart :: r =>
        if isBlank r then
          checkEnd r
          return some (0, #[.empty])
        else content handles r
      | .fault f :: _ => .error f
      | _ => .error .malformed

end Graph

end Scaffold.Yaml
