import GitRemote.Text.Utf8

/-!
# Sets and patterns of shell scripts

Sets of bytes in brackets, as patterns and regular expressions write them, and the patterns of
selections, expansions and file names: a star is any run of bytes, a question mark any byte, brackets
a set. Bytes that were quoted stand for themselves.

Like all of `Script` it only serves to run commands: no result is about it, and none needs it.
-/

namespace GitRemote.Script

/-- A byte of a pattern, and whether it was quoted. -/
abbrev PatternByte := UInt8 × Bool

/-- A set of bytes as the ranges it is made of. -/
abbrev ByteSet := List (UInt8 × UInt8)

/-- Whether a byte is in a set. -/
def ByteSet.has (s : ByteSet) (b : UInt8) : Bool := s.any fun (low, high) => low ≤ b && b ≤ high

/-- The members of a set in the order of its ranges. -/
def ByteSet.members (s : ByteSet) : Bytes :=
  s.flatMap fun (low, high) =>
    (List.range (high.toNat + 1 - low.toNat)).map fun i => UInt8.ofNat (low.toNat + i)

/-- The sets that have a name. -/
def namedSets : List (String × ByteSet) :=
  [("alpha", [(0x41, 0x5A), (0x61, 0x7A)]), ("digit", [(0x30, 0x39)]),
    ("alnum", [(0x30, 0x39), (0x41, 0x5A), (0x61, 0x7A)]), ("upper", [(0x41, 0x5A)]),
    ("lower", [(0x61, 0x7A)]), ("space", [(0x09, 0x0D), (0x20, 0x20)]),
    ("blank", [(0x09, 0x09), (0x20, 0x20)]), ("cntrl", [(0x00, 0x1F), (0x7F, 0x7F)]),
    ("graph", [(0x21, 0x7E)]), ("print", [(0x20, 0x7E)]),
    ("punct", [(0x21, 0x2F), (0x3A, 0x40), (0x5B, 0x60), (0x7B, 0x7E)]),
    ("xdigit", [(0x30, 0x39), (0x41, 0x46), (0x61, 0x66)])]

/-- The set with a name between colons and its closing bracket, with what follows. -/
def namedSet? (p : List PatternByte) : Option (ByteSet × List PatternByte) :=
  match p with
  | (0x3A, _) :: p =>
    let name := (p.map (·.1)).takeWhile (· != 0x3A)
    match p.drop name.length with
    | (0x3A, _) :: (0x5D, _) :: rest =>
      (namedSets.lookup (Utf8.decodeLossy name)).map fun s => (s, rest)
    | _ => none
  | _ => none

/-- The members of a set up to its closing bracket, which is a member if it is the first. -/
def readSet : Nat → Bool → List PatternByte → Option (ByteSet × List PatternByte)
  | 0, _, _ => none
  | _ + 1, _, [] => none
  | fuel + 1, first, (b, quoted) :: rest =>
    if b = 0x5D ∧ !quoted ∧ !first then some ([], rest)
    else
      match if b = 0x5B then namedSet? rest else none with
      | some (set, rest) => (readSet fuel false rest).map fun (s, r) => (set ++ s, r)
      | none =>
        match rest with
        | (0x2D, false) :: (high, q) :: after =>
          if high = 0x5D ∧ !q then (readSet fuel false rest).map fun (s, r) => ((b, b) :: s, r)
          else (readSet fuel false after).map fun (s, r) => ((b, high) :: s, r)
        | _ => (readSet fuel false rest).map fun (s, r) => ((b, b) :: s, r)

/-- A set behind its opening bracket, and whether it is negated. -/
def bracketSet? (p : List PatternByte) : Option ((Bool × ByteSet) × List PatternByte) :=
  match p with
  | (0x21, false) :: p => (readSet (p.length + 1) true p).map fun (s, r) => ((true, s), r)
  | (0x5E, false) :: p => (readSet (p.length + 1) true p).map fun (s, r) => ((true, s), r)
  | p => (readSet (p.length + 1) true p).map fun (s, r) => ((false, s), r)

/-- Whether a pattern matches all of a text. -/
def patternMatches : Nat → List PatternByte → Bytes → Bool
  | 0, _, _ => false
  | _ + 1, [], text => text.isEmpty
  | fuel + 1, (0x2A, false) :: rest, text =>
    patternMatches fuel rest text ||
      match text with
      | [] => false
      | _ :: text => patternMatches fuel ((0x2A, false) :: rest) text
  | _ + 1, _ :: _, [] => false
  | fuel + 1, (p, quoted) :: rest, x :: text =>
    if quoted then p == x && patternMatches fuel rest text
    else if p = 0x3F then patternMatches fuel rest text
    else if p = 0x5B then
      match bracketSet? rest with
      | some ((negated, set), rest) => (set.has x != negated) && patternMatches fuel rest text
      | none => p == x && patternMatches fuel rest text
    else p == x && patternMatches fuel rest text

/-- Whether a pattern matches all of a text. -/
def patternMatch (pattern : List PatternByte) (text : Bytes) : Bool :=
  patternMatches (pattern.length + text.length + 1) pattern text

/-- Whether a pattern has a byte that does not stand for itself. -/
def isPattern (pattern : List PatternByte) : Bool :=
  pattern.any fun (b, quoted) => !quoted && (b == 0x2A || b == 0x3F || b == 0x5B)

/-- A text without what a pattern matches at its start. -/
def dropMatch (longest : Bool) (pattern : List PatternByte) (text : Bytes) : Bytes :=
  let sizes := List.range (text.length + 1)
  let sizes := if longest then sizes.reverse else sizes
  match sizes.find? fun n => patternMatch pattern (text.take n) with
  | some n => text.drop n
  | none => text

/-- A text without what a pattern matches at its end. -/
def dropMatchRight (longest : Bool) (pattern : List PatternByte) (text : Bytes) : Bytes :=
  let sizes := List.range (text.length + 1)
  let sizes := if longest then sizes else sizes.reverse
  match sizes.find? fun n => patternMatch pattern (text.drop n) with
  | some n => text.take n
  | none => text

end GitRemote.Script
