import Scaffold.Value

/-!
# `Scaffold.Value.Mapping` — mappings made from other values

A mapping is a mapping already; a sequence of pairs becomes one. For a pair anything will do that has
two items: a list, a text of two characters, a mapping of two keys.

## Contents
- **Faults.** `MappingFault`.
- **Items.** `Value.items?`.
- **Mappings.** `Entries.ofValue`.
-/

namespace Scaffold

open Decimal (digitsOf)

/-- Why a value gives no mapping. -/
inductive MappingFault
  /-- The value has no items. -/
  | noItems (kind : String)
  /-- The item at a position has no items itself. -/
  | noPair (position : Nat)
  /-- The item at a position has not two items. -/
  | wrongSize (position size : Nat)
  /-- A key is of a kind that keys cannot have. -/
  | badKey (kind : String)
  deriving DecidableEq, Repr

/-- The words for a fault. -/
def MappingFault.message : MappingFault → String
  | .noItems kind => s!"'{kind}' object is not iterable"
  | .noPair i => s!"cannot convert dictionary update sequence element #{digitsOf i} to a sequence"
  | .wrongSize i n =>
    s!"dictionary update sequence element #{digitsOf i} has length {digitsOf n}; 2 is required"
  | .badKey kind => s!"unhashable type: '{kind}'"

/-- The items of a value: of a text its characters, of a mapping its keys. -/
def Value.items? (v : Value) : Option (List Value) :=
  match v.unfold with
  | .list xs => some xs
  | .pair a b => some [a, b]
  | .set xs => some xs
  | .map es => some (es.map (·.1))
  | .text s => some (s.toList.map fun c => .text (String.singleton c))
  | .bytes bs => some (bs.map fun b => .int b.toNat)
  | _ => none

namespace Entries

/-- Puts the pairs that the items give, the first of them standing at `position`. -/
def putPairs (es : Entries) (position : Nat) : List Value → Except MappingFault Entries
  | [] => .ok es
  | x :: r =>
    match x.items? with
    | none => .error (.noPair position)
    | some [k, v] =>
      match k.keyObstacle? with
      | none => putPairs (es.put k v) (position + 1) r
      | some kind => .error (.badKey kind)
    | some xs => .error (.wrongSize position xs.length)

/-- The mapping that a value is, or that its pairs make. -/
def ofValue (v : Value) : Except MappingFault Entries :=
  match v.entries? with
  | some es => .ok es
  | none =>
    match v.items? with
    | none => .error (.noItems v.fullKind)
    | some xs => putPairs [] 0 xs

end Entries

end Scaffold
