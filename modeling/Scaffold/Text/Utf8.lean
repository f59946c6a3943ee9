import Scaffold.Text.Basic

/-!
# `Scaffold.Text.Utf8` — reading and writing UTF-8

Reading is strict or replacing. The strict reader names the first faulty bytes and what is wrong
with them; the replacing reader puts one replacement character for every maximal faulty part.

## Contents
- **One character.** `step`: the character at the front of the bytes, or the faulty part there.
- **Whole texts.** `decode`, `decodeReplacing`, `encode`.
- **Faults.** `Fault.message`.
-/

namespace Scaffold.Text.Utf8

/-- What is wrong with a faulty part of the bytes. -/
inductive Cause
  /-- A byte that begins no character. -/
  | invalidStart
  /-- A character broken off by a byte that does not continue it. -/
  | invalidContinuation
  /-- A character broken off by the end of the bytes. -/
  | unexpectedEnd
  deriving DecidableEq, Repr

/-- The first faulty part of the bytes: its place, its bytes and what is wrong with it. -/
structure Fault where
  position : Nat
  bytes : List UInt8
  cause : Cause
  deriving DecidableEq, Repr

/-- The lower-case digits of a number below 256 in base 16, two of them. -/
def hexPair (n : Nat) : String :=
  let digit (k : Nat) : Char := if k < 10 then Char.ofNat (0x30 + k) else Char.ofNat (0x57 + k)
  String.ofList [digit (n / 16 % 16), digit (n % 16)]

/-- The reason as a message gives it. -/
def Cause.message : Cause → String
  | .invalidStart => "invalid start byte"
  | .invalidContinuation => "invalid continuation byte"
  | .unexpectedEnd => "unexpected end of data"

/-- The message of a fault. One faulty byte is shown, several are given by their places. -/
def Fault.message (f : Fault) : String :=
  match f.bytes with
  | [b] =>
    s!"'utf-8' codec can't decode byte 0x{hexPair b.toNat} in position {f.position}: " ++
      f.cause.message
  | bs =>
    s!"'utf-8' codec can't decode bytes in position {f.position}-{f.position + bs.length - 1}: " ++
      f.cause.message

/-- What a first byte announces: how many bytes follow, the range of the second one, and the bits
    of the character that the first byte holds. -/
def lead? (b : Nat) : Option (Nat × Nat × Nat × Nat) :=
  if b < 0x80 then some (0, 0, 0, b)
  else if b < 0xc2 then none
  else if b < 0xe0 then some (1, 0x80, 0xbf, b - 0xc0)
  else if b = 0xe0 then some (2, 0xa0, 0xbf, 0)
  else if b = 0xed then some (2, 0x80, 0x9f, 0xd)
  else if b < 0xf0 then some (2, 0x80, 0xbf, b - 0xe0)
  else if b = 0xf0 then some (3, 0x90, 0xbf, 0)
  else if b < 0xf4 then some (3, 0x80, 0xbf, b - 0xf0)
  else if b = 0xf4 then some (3, 0x80, 0x8f, 4)
  else none

/-- Reads `count` continuation bytes, the first of them within `low` and `high`, onto `acc`. The
    second component counts the bytes taken, the last one is what is wrong. -/
def continuations : (count low high acc : Nat) → List UInt8 → Nat × Nat × Option Cause
  | 0, _, _, acc, _ => (acc, 0, none)
  | _ + 1, _, _, acc, [] => (acc, 0, some .unexpectedEnd)
  | n + 1, low, high, acc, b :: r =>
    if low ≤ b.toNat ∧ b.toNat ≤ high then
      let (v, k, e) := continuations n 0x80 0xbf (acc * 64 + (b.toNat - 0x80)) r
      (v, k + 1, e)
    else (acc, 0, some .invalidContinuation)

/-- The character at the front of `b :: rest` with the number of bytes it takes, or the cause of
    the fault there with the number of bytes at fault. -/
def step (b : UInt8) (rest : List UInt8) : Except (Cause × Nat) Char × Nat :=
  match lead? b.toNat with
  | none => (.error (.invalidStart, 1), 1)
  | some (count, low, high, bits) =>
    match continuations count low high bits rest with
    | (v, k, none) => (.ok (Char.ofNat v), k + 1)
    | (_, k, some cause) => (.error (cause, k + 1), k + 1)

/-- Reads all bytes; `fuel` bounds the characters and `position` is the place of the first byte. -/
def decodeFrom : (fuel position : Nat) → List UInt8 → Except Fault (List Char)
  | 0, _, _ => .ok []
  | _ + 1, _, [] => .ok []
  | n + 1, position, b :: r =>
    match step b r with
    | (.ok c, k) =>
      match decodeFrom n (position + k) (r.drop (k - 1)) with
      | .ok cs => .ok (c :: cs)
      | .error f => .error f
    | (.error (cause, k), _) => .error ⟨position, (b :: r).take k, cause⟩

/-- The text that the bytes spell, or their first fault. -/
def decode (bytes : List UInt8) : Except Fault String :=
  (decodeFrom bytes.length 0 bytes).map String.ofList

/-- Reads all bytes, faulty parts as the replacement character. -/
def replaceFrom : (fuel : Nat) → List UInt8 → List Char
  | 0, _ => []
  | _ + 1, [] => []
  | n + 1, b :: r =>
    match step b r with
    | (.ok c, k) => c :: replaceFrom n (r.drop (k - 1))
    | (.error _, k) => Char.ofNat 0xfffd :: replaceFrom n (r.drop (k - 1))

/-- The text that the bytes spell, with the replacement character for every faulty part. -/
def decodeReplacing (bytes : List UInt8) : String :=
  String.ofList (replaceFrom bytes.length bytes)

/-- The bytes of a text. -/
def encode (text : String) : List UInt8 := text.toUTF8.toList

end Scaffold.Text.Utf8
