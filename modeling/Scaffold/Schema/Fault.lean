import Scaffold.Value.Display

/-!
# `Scaffold.Schema.Fault` — what is wrong with a document

## Contents
- **Places.** `Step`: one step from the root of a document to a fault.
- **Faults.** `FaultKind` with its code and words, `Fault`.
-/

namespace Scaffold.Schema

/-- One step into a document: to a key, or to a place in a list. -/
inductive Step
  | key (name : String)
  | index (n : Int)
  deriving DecidableEq, Repr

/-- A whole number of machine size: 64 bits, one of them for the sign. -/
def isWord (n : Int) : Bool := -0x8000000000000000 ≤ n && n < 0x8000000000000000

/-- The step to a key of any kind, which `words` stand for if it is neither a text nor a number. Keys
    that are whole numbers of machine size count as places; one that cannot be shown is only told of
    by its kind. -/
def Step.ofKey (words : String) (key : Value) : Step :=
  match key with
  | .text s => .key s
  | .bool b => .index (if b then 1 else 0)
  | .int n =>
    if isWord n then .index n
    else if Decimal.isLong n then .key "<unprintable int object>"
    else .key (Decimal.intText n)
  | key => .key (if key.unshowable?.isSome then s!"<unprintable {key.kind} object>" else words)

/-- What can be wrong at a place. -/
inductive FaultKind
  | missing
  | extra
  | invalidKey
  | notRecord (model : String)
  | notText
  | notUnicode
  | emptyText
  | pattern
  | notBool
  | unreadableBool
  | notNumber
  | unreadableNumber
  | notPositive
  | notChoice (names : List String)
  | notLiteral (names : List String)
  | notMapping
  | notList
  | emptyList
  | rejected (reason : String)
  deriving DecidableEq, Repr

/-- A short name of the kind of fault. -/
def FaultKind.code : FaultKind → String
  | .missing => "missing"
  | .extra => "extra_forbidden"
  | .invalidKey => "invalid_key"
  | .notRecord _ => "model_type"
  | .notText => "string_type"
  | .notUnicode => "string_unicode"
  | .emptyText => "string_too_short"
  | .pattern => "string_pattern_mismatch"
  | .notBool => "bool_type"
  | .unreadableBool => "bool_parsing"
  | .notNumber => "float_type"
  | .unreadableNumber => "float_parsing"
  | .notPositive => "greater_than"
  | .notChoice _ => "enum"
  | .notLiteral _ => "literal_error"
  | .notMapping => "dict_type"
  | .notList => "list_type"
  | .emptyList => "too_short"
  | .rejected _ => "value_error"

/-- Names in quotes, commas between them and `or` before the last. -/
def orList : List String → String
  | [] => ""
  | [a] => "'" ++ a ++ "'"
  | [a, b] => "'" ++ a ++ "' or '" ++ b ++ "'"
  | a :: b :: c :: r => "'" ++ a ++ "', " ++ orList (b :: c :: r)

/-- The words for the kind of fault. -/
def FaultKind.message : FaultKind → String
  | .missing => "Field required"
  | .extra => "Extra inputs are not permitted"
  | .invalidKey => "Keys should be strings"
  | .notRecord model => s!"Input should be a valid dictionary or instance of {model}"
  | .notText => "Input should be a valid string"
  | .notUnicode => "Input should be a valid string, unable to parse raw data as a unicode string"
  | .emptyText => "String should have at least 1 character"
  | .pattern => "String should match pattern '^[A-Za-z0-9]+$'"
  | .notBool => "Input should be a valid boolean"
  | .unreadableBool => "Input should be a valid boolean, unable to interpret input"
  | .notNumber => "Input should be a valid number"
  | .unreadableNumber => "Input should be a valid number, unable to parse string as a number"
  | .notPositive => "Input should be greater than 0"
  | .notChoice names => "Input should be " ++ orList names
  | .notLiteral names => "Input should be " ++ orList names
  | .notMapping => "Input should be a valid dictionary"
  | .notList => "Input should be a valid list"
  | .emptyList => "List should have at least 1 item after validation, not 0"
  | .rejected reason => "Value error, " ++ reason

/-- Something wrong at a place. -/
structure Fault where
  place : List Step
  kind : FaultKind
  deriving DecidableEq, Repr

/-- How many faults a record has. -/
def Fault.headline (record : String) (faults : List Fault) : String :=
  let noun := if faults.length = 1 then "error" else "errors"
  s!"{Decimal.digitsOf faults.length} validation {noun} for {record}"

end Scaffold.Schema
