import Scaffold.Yaml.Stamp

/-!
# `Scaffold.Yaml.Tag` — the kinds of YAML nodes

A node has a tag, given or found. For a plain scalar the tag is found by the form of its text.

## Contents
- **Tags.** `Tag`, `Tag.ofUri`.
- **Forms.** `isFloat`, `isInt`, `isTime`.
- **Finding.** `Tag.ofPlain`.
-/

namespace Scaffold.Yaml

open Text (isDigit hexValue?)

/-- The kinds that have a meaning, and those that have none. -/
inductive Tag
  | null
  | bool
  | int
  | float
  | binary
  | timestamp
  | pairs
  | set
  | str
  | seq
  | map
  /-- The key `<<`. -/
  | merge
  /-- The key `=`. -/
  | default
  | unknown
  deriving DecidableEq, Repr

namespace Tag

/-- What the tags of the language itself begin with. -/
def root : String := "tag:yaml.org,2002:"

/-- The names of the tags after `root`. Ordered mappings are read as lists of pairs. -/
def names : List (String × Tag) :=
  [("null", .null), ("bool", .bool), ("int", .int), ("float", .float), ("binary", .binary),
   ("timestamp", .timestamp), ("omap", .pairs), ("pairs", .pairs), ("set", .set), ("str", .str),
   ("seq", .seq), ("map", .map), ("merge", .merge), ("value", .default)]

/-- The tag that a whole name stands for. -/
def ofUri (uri : String) : Tag :=
  match Text.dropPat? root.toList uri.toList with
  | none => .unknown
  | some r => (names.lookup (String.ofList r)).getD .unknown

/-! ## Forms -/

/-- A digit or an underscore. -/
def isPlace (c : Char) : Bool := isDigit c || c = '_'

/-- Without a sign at the front. -/
def unsigned : List Char → List Char
  | c :: r => if c = '-' ∨ c = '+' then r else c :: r
  | [] => []

/-- An exponent with a sign, or nothing. -/
def isExponent : List Char → Bool
  | [] => true
  | [_] => false
  | e :: sign :: ds =>
    (e = 'e' || e = 'E') && (sign = '-' || sign = '+') && !ds.isEmpty && ds.all isDigit

/-- What follows the parts of a number of base 60; none if there is no part after the first. -/
def afterSixties? : List Char → Option (List Char)
  | ':' :: a :: b :: r =>
    if isDigit a && isDigit b then
      if a.toNat ≤ '5'.toNat then some ((afterSixties? r).getD r) else none
    else if isDigit a then some ((afterSixties? (b :: r)).getD (b :: r)) else none
  | [':', a] => if isDigit a then some [] else none
  | _ => none

/-- Digits and underscores, the first one accepted by `first`, then what `rest` accepts. -/
def isNumeral (first : Char → Bool) (rest : List Char → Bool) : List Char → Bool
  | c :: r => first c && rest (r.dropWhile isPlace)
  | [] => false

/-- A point, digits, an exponent. -/
def isFraction : List Char → Bool
  | '.' :: r => isExponent (r.dropWhile isPlace)
  | _ => false

/-- Parts of base 60 with a fraction in the last one. -/
def isSixtiesFraction (cs : List Char) : Bool :=
  match afterSixties? cs with
  | some ('.' :: r) => r.all isPlace
  | _ => false

/-- The form of a floating point number. -/
def isFloat (cs : List Char) : Bool :=
  let body := unsigned cs
  isNumeral isDigit (fun r => isFraction r || isSixtiesFraction r) body ||
    (match cs with | '.' :: r => isNumeral isDigit isExponent r | _ => false) ||
    [".inf", ".Inf", ".INF"].contains (String.ofList body) ||
    [".nan", ".NaN", ".NAN"].contains (String.ofList cs)

/-- The form of an integer: in base 2, 8, 10, 16 or 60. -/
def isInt (cs : List Char) : Bool :=
  match unsigned cs with
  | '0' :: 'b' :: r => !r.isEmpty && r.all fun c => c = '0' || c = '1' || c = '_'
  | '0' :: 'x' :: r => !r.isEmpty && r.all fun c => (hexValue? c).isSome || c = '_'
  | '0' :: r => r.all fun c => (isDigit c && c.toNat ≤ '7'.toNat) || c = '_'
  | body => isNumeral isDigit (fun r => r.isEmpty || afterSixties? r = some []) body

/-- The form of a date or time. -/
def isTime (cs : List Char) : Bool :=
  match Stamp.read? cs with
  | some s => s.isPlain
  | none => false

/-- The words for truth values. -/
def truthWords : List String :=
  ["yes", "Yes", "YES", "no", "No", "NO", "true", "True", "TRUE", "false", "False", "FALSE",
   "on", "On", "ON", "off", "Off", "OFF"]

/-- The words for nothing. -/
def nullWords : List String := ["~", "null", "Null", "NULL", ""]

/-- The tag of a plain scalar. A line feed at the end does not count, unless it is all there is. -/
def ofPlain (text : String) : Tag :=
  let cs := text.toList
  let cs := if cs.getLast? = some '\n' ∧ cs ≠ ['\n'] then cs.dropLast else cs
  let word := String.ofList cs
  if truthWords.contains word then .bool
  else if isFloat cs then .float
  else if isInt cs then .int
  else if word = "<<" then .merge
  else if nullWords.contains word then .null
  else if isTime cs then .timestamp
  else if word = "=" then .default
  else .str

end Tag

end Scaffold.Yaml
