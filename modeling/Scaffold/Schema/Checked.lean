import Scaffold.Choice
import Scaffold.Schema.Fault
import Scaffold.Json.Writer
import Scaffold.Decimal.Numeral
import Scaffold.Text.Utf8

/-!
# `Scaffold.Schema.Checked` — reading records from values

A record is read field by field, and all faults of all fields are collected. Reading stops only
where a value cannot be written that has to be, or cannot be shown in a complaint about it.

## Contents
- **Results.** `Checked`, an applicative that keeps the faults of both sides; `Checked.fault`,
  `Checked.unwritable`, `Checked.complaint`.
- **Scalars.** `readText`, `readName`, `readBool`, `readPositive`, `readChoice`.
- **Collections.** `readOptional`, `readList`, `readOptions`.
- **Records.** `Key`, `readField`, `readRecord`.
-/

namespace Scaffold.Schema

open Decimal (Binary64)

/-! ## Results -/

/-- What reading gave: something, faults, or nothing since a value could not be written. -/
inductive Checked (α : Type)
  | valid (a : α)
  | invalid (faults : List Fault)
  | aborted (cause : Json.Unwritable)

namespace Checked

variable {α β : Type}

/-- A single fault here. -/
def fault (kind : FaultKind) : Checked α := .invalid [⟨[], kind⟩]

/-- A value that cannot be written or shown. What is wrong with the value itself is a fault here;
    anything else stops the reading. -/
def unwritable (cause : Json.Unwritable) : Checked α :=
  if cause.isWrongValue then fault (.rejected cause.message) else .aborted cause

/-- A complaint about a value, unless the value cannot be shown. -/
def complaint (cause : Option Json.Unwritable) (reason : String) : Checked α :=
  match cause with
  | none => fault (.rejected reason)
  | some cause => unwritable cause

/-- Applies a function to what was read. -/
def map (f : α → β) : Checked α → Checked β
  | .valid a => .valid (f a)
  | .invalid fs => .invalid fs
  | .aborted c => .aborted c

/-- Both sides are read, and the faults of both are kept. -/
def seq (f : Checked (α → β)) (x : Unit → Checked α) : Checked β :=
  match f with
  | .aborted c => .aborted c
  | .valid g => (x ()).map g
  | .invalid fs =>
    match x () with
    | .aborted c => .aborted c
    | .valid _ => .invalid fs
    | .invalid gs => .invalid (fs ++ gs)

instance : Applicative Checked where
  pure := .valid
  map f x := map f x
  seq f x := seq f x

/-- The faults lie one step further in. -/
def within (step : Step) : Checked α → Checked α
  | .invalid fs => .invalid (fs.map fun f => { f with place := step :: f.place })
  | c => c

/-- What was read has to pass a test, and is rejected with a reason otherwise. -/
def ensure (test : α → Option String) : Checked α → Checked α
  | .valid a =>
    match test a with
    | none => .valid a
    | some reason => fault (.rejected reason)
  | c => c

end Checked

open Checked (fault)

variable {α : Type}

/-! ## Scalars -/

/-- A text. Bytes count as the text that they spell. -/
def readText : Value → Checked String
  | .text s => .valid s
  | .bytes bs =>
    match Text.Utf8.decode bs with
    | .ok s => .valid s
    | .error _ => fault .notUnicode
  | _ => fault .notText

/-- A text that is not empty. -/
def readName (v : Value) : Checked String :=
  match readText v with
  | .valid s => if s = "" then fault .emptyText else .valid s
  | c => c

/-- A text of ASCII letters and digits that is not empty. -/
def readExtension (v : Value) : Checked String :=
  match readText v with
  | .valid s => if s ≠ "" ∧ s.toList.all Text.isAlnum then .valid s else fault .pattern
  | c => c

/-- The text of a value that is read as one: a text, or bytes. -/
def spelled? : Value → Option (Option String)
  | .text s => some (some s)
  | .bytes bs => some (Text.Utf8.decode bs).toOption
  | _ => none

/-- The truth value that a word stands for, in any letter case. -/
def truthWord? (s : String) : Option Bool :=
  let word := String.ofList (s.toList.map Text.lowerChar)
  if ["0", "off", "f", "false", "n", "no"].contains word then some false
  else if ["1", "on", "t", "true", "y", "yes"].contains word then some true
  else none

/-- A truth value, a zero or a one, or a word for either. -/
def readBool (v : Value) : Checked Bool :=
  match v with
  | .bool b => .valid b
  | .int n =>
    if n = 0 then .valid false
    else if n = 1 then .valid true
    else if isWord n then fault .unreadableBool
    else fault .notBool
  | .float x =>
    if x.toInt? = some 0 then .valid false
    else if x.toInt? = some 1 then .valid true
    else fault .notBool
  | v =>
    match spelled? v with
    | none => fault .notBool
    | some word =>
      match word.bind truthWord? with
      | some b => .valid b
      | none => fault .unreadableBool

/-- Two underscores stand side by side. -/
def hasDouble : List Char → Bool
  | '_' :: '_' :: _ => true
  | _ :: r => hasDouble r
  | [] => false

/-- The number that a text spells, blanks around it left out. Single underscores inside are left out
    too, but only where there are no such blanks. -/
def readNumber? (s : String) : Option Binary64 :=
  let cs := s.toList
  match Decimal.readBareFloat? (Text.trimSpaces cs) with
  | some x => some x
  | none =>
    if cs.head? = some '_' || cs.getLast? = some '_' || !cs.contains '_' || hasDouble cs then none
    else Decimal.readBareFloat? (cs.filter (· ≠ '_'))

/-- A number; truth values count as one and zero, texts as the numbers that they spell. -/
def readNumber (v : Value) : Checked Binary64 :=
  match v with
  | .float x => .valid x
  | .bool b => .valid (Binary64.ofInt (if b then 1 else 0))
  | .int n =>
    match Binary64.ofInt n with
    | .infinite _ => fault .notNumber
    | x => .valid x
  | v =>
    match spelled? v with
    | none => fault .notNumber
    | some text =>
      match text.bind readNumber? with
      | some x => .valid x
      | none => fault .unreadableNumber

/-- A number above zero. -/
def readPositive (v : Value) : Checked Binary64 :=
  match readNumber v with
  | .valid x => if x.isPositive then .valid x else fault .notPositive
  | c => c

/-- An alternative of a closed set, by its name. Bytes count as the name that they spell. -/
def readChoice [Choice α] (v : Value) : Checked α :=
  match (spelled? v).bind fun name => name.bind Choice.ofName? with
  | some a => .valid a
  | none => fault (.notChoice ((Choice.all : List α).map Choice.name))

/-- An alternative that is written literally, as a text. -/
def readLiteral [Choice α] (v : Value) : Checked α :=
  match Choice.ofValue? v with
  | some a => .valid a
  | none => fault (.notLiteral ((Choice.all : List α).map Choice.name))

/-! ## Collections -/

/-- Nothing, or what `read` reads. -/
def readOptional (read : Value → Checked α) : Value → Checked (Option α)
  | .null => .valid none
  | v => (read v).map some

/-- The items of a list, the first one standing at `position`. -/
def readItems (read : Value → Checked α) : (position : Nat) → List Value → Checked (List α)
  | _, [] => .valid []
  | n, x :: r => (· :: ·) <$> (read x).within (.index n) <*> readItems read (n + 1) r

/-- A list. Sets and pairs count as lists. -/
def readList (read : Value → Checked α) (v : Value) : Checked (List α) :=
  match v.unfold with
  | .list xs => readItems read 0 xs
  | .set xs => readItems read 0 xs
  | .pair a b => readItems read 0 [a, b]
  | _ => fault .notList

/-- A list that is not empty. -/
def readNonempty (read : Value → Checked α) (v : Value) : Checked (List α) :=
  match readList read v with
  | .valid [] => fault .emptyList
  | c => c

/-- Entries whose keys have to be texts; the values are not looked at. -/
def readEntries : Entries → Checked Entries
  | [] => .valid []
  | (k, v) :: r =>
    let key := ((readText k).within (.key "[key]")).within (Step.ofKey k.display k)
    (fun s es => (.text s, v) :: es) <$> key <*> readEntries r

/-- A mapping with texts for keys. Of keys that are the same text the first place and the last value
    stay. -/
def readOptions (v : Value) : Checked Entries :=
  match v.entries? with
  | some es => (readEntries es).map Entries.ofList
  | none => fault .notMapping

/-! ## Records -/

/-- The two spellings of a field: `camel` as documents write it, `snake` as it is called in this
    program's own messages. The first one counts if both are there. -/
structure Key where
  camel : String
  snake : String
  deriving DecidableEq, Repr

/-- A field with one spelling. -/
def Key.single (name : String) : Key := ⟨name, name⟩

/-- The spelling of a field that a mapping uses, with its value. -/
def Key.find? (k : Key) (es : Entries) : Option (String × Value) :=
  match es.lookup k.camel with
  | some v => some (k.camel, v)
  | none => (es.lookup k.snake).map fun v => (k.snake, v)

/-- A field of a record, `default` if it is absent. -/
def readField (es : Entries) (k : Key) (read : Value → Checked α) (default : Option α) : Checked α :=
  match k.find? es with
  | some (spelling, v) => (read v).within (.key spelling)
  | none =>
    match default with
    | some a => .valid a
    | none => (fault .missing).within (.key k.camel)

/-- The faults of keys that no field has read. -/
def extraFaults (used : List String) : Entries → List Fault
  | [] => []
  | (.text s, _) :: r =>
    if used.contains s then extraFaults used r else ⟨[.key s], .extra⟩ :: extraFaults used r
  | (k, _) :: r => ⟨[Step.ofKey k.shown k], .invalidKey⟩ :: extraFaults used r

/-- A record: its fields as `body` reads them, and no other keys. -/
def readRecord (model : String) (keys : List Key) (body : Entries → Checked α) (v : Value) :
    Checked α :=
  match v.entries? with
  | some es =>
    let used := keys.filterMap fun k => (k.find? es).map (·.1)
    match extraFaults used es with
    | [] => body es
    | fs => body es <* (.invalid fs : Checked Unit)
  | none => fault (.notRecord model)

end Scaffold.Schema
