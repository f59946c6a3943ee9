import Scaffold.Calendar
import Scaffold.Decimal.Limit

/-!
# `Scaffold.Value` — the values of a schema document

A document is read into values before anything is known about its meaning. Mappings keep the order
in which their keys came.

## Contents
- **Values.** `Value`, `Value.kind`, `Value.truthy`.
- **Knots.** `Value.unfold`: what a collection holds that holds itself; `Value.items`,
  `Value.entries?`.
- **Keys.** `Value.sameKey`: which keys a mapping takes for one.
- **Long integers.** `Value.holdsLong`.
- **Nesting.** `Value.depth`: how many collections stand inside each other.
- **Plain values.** `Value.plain`: what a JSON document can hold.
- **Mappings.** `put`, `lookup`, `remove` on lists of entries.
-/

namespace Scaffold

open Decimal (Binary64)

/-- A value of a schema document. Dates, moments, bytes, pairs, sets, knots and keys other than texts
    come from YAML only.

    A list or mapping that holds itself, at whatever depth, is a *knot*: `knot n v` is the collection
    `v` under the label `n`, and `again n` in it is the place where it stands once more. Every
    collection on a cycle is a knot, so the label tells which collection it is. -/
inductive Value
  | null
  | bool (b : Bool)
  | int (n : Int)
  | float (x : Binary64)
  | text (s : String)
  | bytes (bs : List UInt8)
  | date (d : Date)
  | moment (m : Moment)
  | list (xs : List Value)
  | set (xs : List Value)
  | map (entries : List (Value × Value))
  | pair (first second : Value)
  | knot (label : Nat) (inner : Value)
  | again (label : Nat) (isMap : Bool)
  deriving Repr, Inhabited

/-- The entries of a mapping, in order. -/
abbrev Entries := List (Value × Value)

namespace Value

/-- The kind of a value as messages call it. -/
def kind : Value → String
  | .null => "NoneType"
  | .bool _ => "bool"
  | .int _ => "int"
  | .float _ => "float"
  | .text _ => "str"
  | .bytes _ => "bytes"
  | .date _ => "date"
  | .moment _ => "datetime"
  | .list _ => "list"
  | .set _ => "set"
  | .map _ => "dict"
  | .pair _ _ => "tuple"
  | .knot _ v => v.kind
  | .again _ isMap => if isMap then "dict" else "list"

/-- The kind with the place it is defined in, for dates. -/
def fullKind : Value → String
  | .date _ => "datetime.date"
  | .moment _ => "datetime.datetime"
  | v => v.kind

/-- Neither nothing, nor zero, nor empty. -/
def truthy : Value → Bool
  | .null => false
  | .bool b => b
  | .int n => n != 0
  | .float x => !x.isZero
  | .text s => s != ""
  | .bytes bs => !bs.isEmpty
  | .date _ => true
  | .moment _ => true
  | .list xs => !xs.isEmpty
  | .set xs => !xs.isEmpty
  | .map es => !es.isEmpty
  | .pair _ _ => true
  | .knot _ _ => true
  | .again _ _ => true

/-! ## Knots -/

mutual

/-- The value with `whole` in every place where the collection `label` stands once more. -/
def tie (label : Nat) (whole : Value) : Value → Value
  | .again l isMap => if l = label then whole else .again l isMap
  | .list xs => .list (tieList label whole xs)
  | .map es => .map (tieEntries label whole es)
  | .pair a b => .pair (tie label whole a) (tie label whole b)
  | .knot l v => .knot l (tie label whole v)
  | v => v

/-- `tie` for every value of a list. -/
def tieList (label : Nat) (whole : Value) : List Value → List Value
  | [] => []
  | x :: xs => tie label whole x :: tieList label whole xs

/-- `tie` for the values of entries; keys are no collections. -/
def tieEntries (label : Nat) (whole : Value) : List (Value × Value) → List (Value × Value)
  | [] => []
  | (k, v) :: es => (k, tie label whole v) :: tieEntries label whole es

end

/-- The value with its knot at the front opened: what it holds is whole again. -/
def unfold : Value → Value
  | .knot l v => tie l (.knot l v) v
  | v => v

/-- The entries of a mapping. -/
def entries? (v : Value) : Option (List (Value × Value)) :=
  match v.unfold with
  | .map es => some es
  | _ => none

/-- The items of a list. -/
def listItems? (v : Value) : Option (List Value) :=
  match v.unfold with
  | .list xs => some xs
  | _ => none

/-! ## Keys -/

/-- The integer that a key stands for, if it is one. -/
def integral? : Value → Option Int
  | .bool b => some (if b then 1 else 0)
  | .int n => some n
  | .float x => x.toInt?
  | _ => none

/-- Whether a mapping takes two keys for the same one. Equal numbers are one key, whatever their
    kind, and so are moments at the same time. Lists, sets and mappings are no keys. -/
def sameKey : Value → Value → Bool
  | .null, .null => true
  | .text s, .text t => s == t
  | .bytes a, .bytes b => a == b
  | .date a, .date b => a == b
  | .moment a, .moment b => a.same b
  | .float x, .float y => x.numEq y
  | .pair a b, .pair c d => a.sameKey c && b.sameKey d
  | a, b =>
    match a.integral?, b.integral? with
    | some n, some m => n == m
    | _, _ => false

/-- The kind of what keeps a value from being a key of a mapping: of the value itself, or of a part
    of a pair. -/
def keyObstacle? : Value → Option String
  | .list _ => some "list"
  | .set _ => some "set"
  | .map _ => some "dict"
  | .pair a b => a.keyObstacle?.or b.keyObstacle?
  | .knot _ v => some v.kind
  | .again _ isMap => some (if isMap then "dict" else "list")
  | _ => none

/-- The text, if the value is one. -/
def text? : Value → Option String
  | .text s => some s
  | _ => none

/-! ## Long integers -/

mutual

/-- The value is or holds an integer with too many digits to be written in decimal. -/
def holdsLong : Value → Bool
  | .int n => Decimal.isLong n
  | .list xs => holdsLongList xs
  | .set xs => holdsLongList xs
  | .map es => holdsLongEntries es
  | .pair a b => holdsLong a || holdsLong b
  | .knot _ v => holdsLong v
  | _ => false

/-- A value of a list holds a long integer. -/
def holdsLongList : List Value → Bool
  | [] => false
  | x :: xs => holdsLong x || holdsLongList xs

/-- A key or value of the entries holds a long integer. -/
def holdsLongEntries : List (Value × Value) → Bool
  | [] => false
  | (k, v) :: es => holdsLong k || holdsLong v || holdsLongEntries es

end

/-! ## Nesting -/

mutual

/-- How many collections stand inside each other; keys are not looked into. -/
def depth : Value → Nat
  | .list xs => depthOfList xs + 1
  | .set xs => depthOfList xs + 1
  | .map es => depthOfEntries es + 1
  | .pair a b => max (depth a) (depth b) + 1
  | .knot _ v => depth v
  | .again _ _ => 1
  | _ => 0

/-- The depth of the deepest value of a list. -/
def depthOfList : List Value → Nat
  | [] => 0
  | x :: xs => max (depth x) (depthOfList xs)

/-- The depth of the deepest value of the entries. -/
def depthOfEntries : List (Value × Value) → Nat
  | [] => 0
  | (_, v) :: es => max (depth v) (depthOfEntries es)

end

/-! ## Plain values -/

mutual

/-- A value that a JSON document can hold: keys are texts, and there are no dates, bytes, sets, pairs
    or knots. -/
def plain : Value → Bool
  | .bytes _ => false
  | .date _ => false
  | .moment _ => false
  | .set _ => false
  | .pair _ _ => false
  | .knot _ _ => false
  | .again _ _ => false
  | .list xs => plainList xs
  | .map es => plainEntries es
  | _ => true

/-- All values of a list are plain. -/
def plainList : List Value → Bool
  | [] => true
  | x :: xs => plain x && plainList xs

/-- All keys are texts and all values plain. -/
def plainEntries : List (Value × Value) → Bool
  | [] => true
  | (.text _, v) :: es => plain v && plainEntries es
  | _ :: _ => false

end

end Value

/-! ## Mappings -/

namespace Entries

/-- The value of a key. -/
def get? (es : Entries) (key : Value) : Option Value :=
  match es with
  | [] => none
  | (k, v) :: r => if k.sameKey key then some v else get? r key

/-- The value of a text key. -/
def lookup (es : Entries) (key : String) : Option Value := get? es (.text key)

/-- A text key is present. -/
def has (es : Entries) (key : String) : Bool := (lookup es key).isSome

/-- The entries with a value for a key: a known key keeps its place, a new one comes last. -/
def put (es : Entries) (key value : Value) : Entries :=
  match es with
  | [] => [(key, value)]
  | (k, v) :: r => if k.sameKey key then (k, value) :: r else (k, v) :: put r key value

/-- The entries without a text key. -/
def remove (es : Entries) (key : String) : Entries :=
  es.filter fun (k, _) => !k.sameKey (.text key)

/-- Puts entries one after another; of a repeated key the first place and the last value stay. -/
def ofList (es : List (Value × Value)) : Entries :=
  es.foldl (fun acc (k, v) => put acc k v) []

end Entries

end Scaffold
