/-!
# `Scaffold.Text.Basic` — lists of characters and simple text operations

Texts are stored as `String` and taken apart as `List Char`. This module holds the operations that
several formats share.

## Contents
- **Blanks.** `isBlank`, `trim`: white space with the information separators; `isSpace`,
  `trimSpaces`: without them.
- **Classes of ASCII.** `isDigit`, `isUpper`, `isLower`, `isAlnum`.
- **Searching.** `startsWith?`, `occursIn`, `breakOn`.
- **Joining.** `joinWith`, `padRight`, `padLeft`.
-/

namespace Scaffold.Text

/-! ## Character classes -/

/-- White space: the blanks and separators of Unicode together with the four ASCII information
    separators. -/
def isBlank (c : Char) : Bool :=
  let n := c.toNat
  (0x9 ≤ n && n ≤ 0xd) || (0x1c ≤ n && n ≤ 0x20) || n == 0x85 || n == 0xa0 || n == 0x1680 ||
  (0x2000 ≤ n && n ≤ 0x200a) || n == 0x2028 || n == 0x2029 || n == 0x202f || n == 0x205f ||
  n == 0x3000

/-- White space in the sense of Unicode: the separators of ASCII do not belong to it. -/
def isSpace (c : Char) : Bool := isBlank c && !(0x1c ≤ c.toNat && c.toNat ≤ 0x1f)

/-- An ASCII digit. -/
def isDigit (c : Char) : Bool := 0x30 ≤ c.toNat && c.toNat ≤ 0x39

/-- An ASCII upper-case letter. -/
def isUpper (c : Char) : Bool := 0x41 ≤ c.toNat && c.toNat ≤ 0x5a

/-- An ASCII lower-case letter. -/
def isLower (c : Char) : Bool := 0x61 ≤ c.toNat && c.toNat ≤ 0x7a

/-- An ASCII letter or digit. -/
def isAlnum (c : Char) : Bool := isDigit c || isUpper c || isLower c

/-- The lower-case form of an ASCII letter; other characters stay. -/
def lowerChar (c : Char) : Char := if isUpper c then Char.ofNat (c.toNat + 32) else c

/-- The upper-case form of an ASCII letter; other characters stay. -/
def upperChar (c : Char) : Char := if isLower c then Char.ofNat (c.toNat - 32) else c

/-- The number that an ASCII digit stands for. -/
def digitValue (c : Char) : Nat := c.toNat - 0x30

/-- The number that a digit of base 16 stands for. -/
def hexValue? (c : Char) : Option Nat :=
  if isDigit c then some (c.toNat - 0x30)
  else if 0x61 ≤ c.toNat && c.toNat ≤ 0x66 then some (c.toNat - 0x57)
  else if 0x41 ≤ c.toNat && c.toNat ≤ 0x46 then some (c.toNat - 0x37)
  else none

/-! ## Trimming -/

/-- Without the blanks at the front. -/
def trimLeft (cs : List Char) : List Char := cs.dropWhile isBlank

/-- Without the blanks at the end. -/
def trimRight (cs : List Char) : List Char := (cs.reverse.dropWhile isBlank).reverse

/-- Without the blanks at both ends. -/
def trim (cs : List Char) : List Char := trimRight (trimLeft cs)

/-- Without the spaces at both ends. -/
def trimSpaces (cs : List Char) : List Char :=
  ((cs.dropWhile isSpace).reverse.dropWhile isSpace).reverse

/-- `trim` on a `String`. -/
def trimmed (s : String) : String := String.ofList (trim s.toList)

/-! ## Searching -/

/-- What follows `pat` at the front of a text, if `pat` is there. -/
def dropPat? : (pat text : List Char) → Option (List Char)
  | [], text => some text
  | _ :: _, [] => none
  | p :: ps, c :: cs => if p = c then dropPat? ps cs else none

/-- The text begins with `pat`. -/
def startsWith (pat text : List Char) : Bool := (dropPat? pat text).isSome

/-- `pat` stands somewhere in the text. -/
def occursIn (pat : List Char) : (text : List Char) → Bool
  | [] => pat.isEmpty
  | c :: cs => startsWith pat (c :: cs) || occursIn pat cs

/-- The part before the first `c`, and the part after it. -/
def breakOn (c : Char) : (text : List Char) → Option (List Char × List Char)
  | [] => none
  | d :: r => if d = c then some ([], r) else (breakOn c r).map fun (a, b) => (d :: a, b)

/-- The pieces between the occurrences of `c`; a text without `c` is one piece. -/
def splitOn (c : Char) : (text : List Char) → List (List Char)
  | [] => [[]]
  | d :: r =>
    if d = c then [] :: splitOn c r
    else match splitOn c r with
      | [] => [[d]]
      | w :: ws => (d :: w) :: ws

/-- The maximal runs of characters that `keep` accepts. -/
def runs (keep : Char → Bool) : (text : List Char) → List (List Char)
  | [] => []
  | c :: r =>
    if keep c then
      match r, runs keep r with
      | d :: _, w :: ws => if keep d then (c :: w) :: ws else [c] :: w :: ws
      | _, ws => [c] :: ws
    else runs keep r

/-! ## Joining and padding -/

/-- The texts one after another with `sep` between neighbours. -/
def joinWith (sep : String) : List String → String
  | [] => ""
  | [s] => s
  | s :: t :: r => s ++ sep ++ joinWith sep (t :: r)

/-- The texts one after another. -/
def concat : List String → String
  | [] => ""
  | s :: r => s ++ concat r

/-- `s` filled up with spaces on the right to `width` characters. -/
def padRight (width : Nat) (s : String) : String :=
  s ++ String.ofList (List.replicate (width - s.length) ' ')

/-- `s` filled up with spaces on the left to `width` characters. -/
def padLeft (width : Nat) (s : String) : String :=
  String.ofList (List.replicate (width - s.length) ' ') ++ s

/-- The character repeated. -/
def rule (width : Nat) (c : Char) : String := String.ofList (List.replicate width c)

end Scaffold.Text
