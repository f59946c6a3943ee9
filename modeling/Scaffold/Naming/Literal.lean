import Scaffold.Json.Writer

/-!
# `Scaffold.Naming.Literal` — object literals of a decorator

The options of a decorator are written as JSON whose keys have lost their quotes, without the outer
braces. A key is known by its quotes and the colon after them.

## Contents
- **Keys.** `isKeyChar`, `opensKey`, `unquoteKeys`.
- **Literals.** `literal`.
-/

namespace Scaffold.Naming

/-- Characters that a key may hold to lose its quotes. -/
def isKeyChar (c : Char) : Bool := c ≠ '(' && c ≠ ')' && c ≠ '\x22'

/-- After an opening quote: a key follows, with its closing quote and a colon. -/
def opensKey (cs : List Char) : Bool :=
  match cs.takeWhile isKeyChar, cs.dropWhile isKeyChar with
  | [], _ => false
  | _, '\x22' :: ':' :: _ => true
  | _, _ => false

/-- Drops the quotes of keys. `inKey` tells that the opening quote of a key has been dropped. -/
def unquoteKeys : (inKey : Bool) → List Char → List Char
  | _, [] => []
  | true, c :: r => if c = '\x22' then unquoteKeys false r else c :: unquoteKeys true r
  | false, c :: r =>
    if c = '\x22' && opensKey r then unquoteKeys true r else c :: unquoteKeys false r

/-- The text without its first and its last character. -/
def inner (cs : List Char) : List Char := cs.tail.dropLast

/-- The body of the object literal of a value. -/
def literal (v : Value) : Except Json.Unwritable String :=
  (Json.writeChars .compact Json.writeLimit v).map fun cs => String.ofList (inner (unquoteKeys false cs))

end Scaffold.Naming
