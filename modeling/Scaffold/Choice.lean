import Scaffold.Value.Display

/-!
# `Scaffold.Choice` — closed sets of named alternatives

Many options take one of a few names. A `Choice` gives the alternatives of such a set in the order
they are offered, with their names and with what messages call the set.

## Contents
- **Sets.** `Choice`, `Choice.ofName?`, `Choice.ofValue?`.
- **Unknown names.** `UnknownChoice` with its name and its words, `Choice.read`.
-/

namespace Scaffold

/-- A closed set of alternatives with names. -/
class Choice (α : Type) where
  all : List α
  name : α → String
  label : String

/-- A value that names no alternative of a set. -/
structure UnknownChoice where
  value : Value
  label : String

namespace UnknownChoice

/-- Why the complaint cannot show the value, if it cannot. -/
def cause? (u : UnknownChoice) : Option Json.Unwritable := u.value.unshowable?

/-- What messages call the complaint. -/
def name (u : UnknownChoice) : String := u.cause?.elim "ValueError" Json.Unwritable.label

/-- The words for an unknown alternative. A value that cannot be shown is what they speak of first. -/
def message (u : UnknownChoice) : String :=
  u.cause?.elim (u.value.shown ++ " is not a valid " ++ u.label) Json.Unwritable.message

end UnknownChoice

namespace Choice

variable {α : Type} [Choice α]

/-- The alternative of a name. -/
def ofName? (s : String) : Option α := all.find? fun a => name a == s

/-- The alternative that a value names; only texts do. -/
def ofValue? : Value → Option α
  | .text s => ofName? s
  | _ => none

/-- The alternative that a value names, or the complaint about it. -/
def read (v : Value) : Except UnknownChoice α :=
  match ofValue? v with
  | some a => .ok a
  | none => .error ⟨v, label α⟩

end Choice

end Scaffold
