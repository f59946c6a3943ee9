import Scaffold.Calendar
import Scaffold.Value.Display

/-!
# `Scaffold.Yaml.Token` — the tokens of a YAML text

Indentation has become explicit in the tokens: a block collection has a start and an end of its
own.

## Contents
- **Failures.** `Failure`, `Failure.message`.
- **Tokens.** `Directive`, `Token`.
-/

namespace Scaffold.Yaml

open Decimal (digitsOf)

/-! ## Failures -/

/-- Why a text could not be read. -/
inductive Failure
  /-- The text is no YAML document, or holds what a document of plain data cannot hold. -/
  | malformed
  /-- An escape in a quoted text names a number that is no character. -/
  | codePoint (n : Nat)
  /-- An escape in a quoted text names half of a surrogate pair, which no text of characters holds. -/
  | loneHalf
  /-- An integer that cannot be read in its base. -/
  | integer (base : Nat) (text : String)
  /-- An integer with more decimal digits than are read. -/
  | longInteger (digits : Nat)
  /-- A floating point number that cannot be read. -/
  | float (text : String)
  /-- A number without any character. -/
  | emptyNumber
  /-- A truth value under an unknown name. -/
  | truthValue (name : String)
  /-- A floating point number with a part that is too large for one. -/
  | tooLarge
  /-- A time that has not the form of one. -/
  | notATime
  /-- A time that is no scalar. -/
  | timeOfParts
  /-- A date or time with a part out of range. -/
  | outOfRange (fault : CalendarFault)
  /-- A document that goes too deep, or a mapping that is its own text. -/
  | endless
  deriving Repr

/-- How much of a text is shown that spells no integer. -/
def shownLength : Nat := 200

/-- The words for a failure. -/
def Failure.message : Failure → String
  | .malformed => "Invalid YAML"
  | .codePoint n =>
    if n < 0x80000000 then "chr() arg not in range(0x110000)"
    else "Python int too large to convert to C int"
  | .loneHalf => "surrogates not allowed"
  | .integer base text =>
    s!"invalid literal for int() with base {digitsOf base}: " ++
      String.ofList ((quoted text).toList.take shownLength)
  | .longInteger n => Decimal.longMessage (some n)
  | .float text => s!"could not convert string to float: {quoted text}"
  | .emptyNumber => "string index out of range"
  | .truthValue name => quoted name
  | .tooLarge => "int too large to convert to float"
  | .notATime => "'NoneType' object has no attribute 'groupdict'"
  | .timeOfParts => "expected string or bytes-like object, got 'list'"
  | .outOfRange fault => fault.message
  | .endless => "maximum recursion depth exceeded"

/-! ## Tokens -/

/-- A line that begins with a percent sign. -/
inductive Directive
  | version (major : Nat)
  | handle (name uri : String)
  | unknown
  deriving Repr

/-- The tokens. -/
inductive Token
  | directive (d : Directive)
  | documentStart
  | documentEnd
  | blockSequenceStart
  | blockMappingStart
  | blockEnd
  | flowSequenceStart
  | flowSequenceEnd
  | flowMappingStart
  | flowMappingEnd
  | blockEntry
  | flowEntry
  | key
  | value
  | reference (name : String)
  | anchor (name : String)
  | tag (handle : Option String) (suffix : String)
  | scalar (text : String) (plain : Bool)
  | streamEnd
  /-- The text could not be taken apart any further. -/
  | fault (f : Failure)
  deriving Repr

end Scaffold.Yaml
