/-!
# Bytes and text

Wire data is a list of bytes, names and messages are strings. `encode` writes a string as UTF-8,
`decode?` reads exactly what `encode` writes, and `decodeLossy` reads every byte string: each maximal
piece that cannot be continued to a well-formed sequence becomes one replacement character.
-/

namespace GitRemote

/-- Raw data as it is stored in objects and sent on the wire. -/
abbrev Bytes := List UInt8

namespace Utf8

/-- The UTF-8 bytes of a string. -/
def encode (s : String) : Bytes := s.toUTF8.data.toList

/-- The string written by these bytes, if they are well-formed UTF-8. -/
def decode? (b : Bytes) : Option String := String.fromUTF8? ⟨b.toArray⟩

/-- The character that stands for a piece of malformed input. -/
def replacement : Char := '\uFFFD'

/-- A sequence of which the lead byte was read: `missing + 1` continuation bytes are due, the next of
them within `low` to `high`, and `value` holds the bits read so far. -/
structure Partial where
  missing : Nat
  low : UInt8
  high : UInt8
  value : Nat
  deriving DecidableEq, Repr

/-- What one byte at the start of a sequence means. -/
inductive Lead where
  | complete (c : Char)
  | opens (p : Partial)
  | malformed
  deriving DecidableEq, Repr

/-- Classifies a lead byte. The bounds on the second byte exclude overlong forms, surrogates and
values past the last code point. -/
def lead (b : UInt8) : Lead :=
  if b < 0x80 then .complete (Char.ofNat b.toNat)
  else if b < 0xC2 then .malformed
  else if b < 0xE0 then .opens ⟨0, 0x80, 0xBF, b.toNat - 0xC0⟩
  else if b == 0xE0 then .opens ⟨1, 0xA0, 0xBF, 0⟩
  else if b == 0xED then .opens ⟨1, 0x80, 0x9F, 0xD⟩
  else if b < 0xF0 then .opens ⟨1, 0x80, 0xBF, b.toNat - 0xE0⟩
  else if b == 0xF0 then .opens ⟨2, 0x90, 0xBF, 0⟩
  else if b < 0xF4 then .opens ⟨2, 0x80, 0xBF, b.toNat - 0xF0⟩
  else if b == 0xF4 then .opens ⟨2, 0x80, 0x8F, 4⟩
  else .malformed

/-- Reads a byte at the start of a sequence: the characters it completes and the sequence it opens. -/
def start (b : UInt8) : List Char × Option Partial :=
  match lead b with
  | .complete c => ([c], none)
  | .opens p => ([], some p)
  | .malformed => ([replacement], none)

/-- Reads a byte inside the sequence `p`. A byte that cannot continue it ends it as malformed and is
then read again as a start. -/
def resume (p : Partial) (b : UInt8) : List Char × Option Partial :=
  if p.low ≤ b ∧ b ≤ p.high then
    let value := p.value * 64 + (b.toNat - 0x80)
    match p.missing with
    | 0 => ([Char.ofNat value], none)
    | m + 1 => ([], some ⟨m, 0x80, 0xBF, value⟩)
  else
    let (chars, next) := start b
    (replacement :: chars, next)

/-- Reads one byte, inside the sequence `p` if one is open. -/
def step (p : Option Partial) (b : UInt8) : List Char × Option Partial :=
  match p with
  | none => start b
  | some p => resume p b

/-- The characters of a byte string, read from inside the sequence `p` if one is open. A sequence
that the end cuts off is malformed. -/
def charsFrom (p : Option Partial) : Bytes → List Char
  | [] => if p.isSome then [replacement] else []
  | b :: rest => (step p b).1 ++ charsFrom (step p b).2 rest

/-- The characters of a byte string, malformed pieces replaced. -/
def charsLossy (b : Bytes) : List Char := charsFrom none b

/-- The text of a byte string, malformed pieces replaced. -/
def decodeLossy (b : Bytes) : String := String.ofList (charsLossy b)

end Utf8

/-- The bytes of a string that the program itself fixes, such as a keyword of a protocol. -/
abbrev bytesOf (s : String) : Bytes := Utf8.encode s

end GitRemote
