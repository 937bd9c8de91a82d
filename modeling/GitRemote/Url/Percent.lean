import GitRemote.Text.Hex

/-!
# Percent-encoding

A character that a part of a URL cannot hold is written as its UTF-8 bytes, each as a percent sign and
two hexadecimal digits. Each part has its own set of such characters; outside ASCII they all are.
-/

namespace GitRemote.Url

/-- Control characters of ASCII, which no part holds. -/
def controlSet (c : Char) : Bool := c.toNat < 0x20 || c.toNat == 0x7F

/-- Characters encoded in a fragment. -/
def fragmentSet (c : Char) : Bool := controlSet c || " \"<>`".toList.contains c

/-- Characters encoded in a query. -/
def querySet (c : Char) : Bool := controlSet c || " \"#<>".toList.contains c

/-- Characters encoded in the query of a special scheme. -/
def specialQuerySet (c : Char) : Bool := querySet c || c == '\''

/-- Characters encoded in a path. -/
def pathSet (c : Char) : Bool := fragmentSet c || "#?\x7b\x7d".toList.contains c

/-- Characters encoded in a user name or password. -/
def userinfoSet (c : Char) : Bool := pathSet c || "/:;=@[\\]^|".toList.contains c

/-- A digit below sixteen in upper case. -/
def upperHexDigit (n : Nat) : Char := if n < 10 then Char.ofNat (0x30 + n) else Char.ofNat (0x37 + n)

/-- A byte as a percent sign and two digits. -/
def percentByte (b : UInt8) : List Char :=
  ['%', upperHexDigit (b.toNat / 16), upperHexDigit (b.toNat % 16)]

/-- A character in a part with the given set. -/
def encodeChar (set : Char → Bool) (c : Char) : List Char :=
  if set c || 0x80 ≤ c.toNat then (Utf8.encode (String.singleton c)).flatMap percentByte else [c]

/-- Text in a part with the given set. -/
def encodeIn (set : Char → Bool) (cs : List Char) : List Char := cs.flatMap (encodeChar set)

/-- The bytes that a percent-encoded text stands for. A percent sign without two digits stands for
itself. -/
def decodePercent : Bytes → Bytes
  | 0x25 :: a :: b :: rest =>
    match Text.hexValue? a, Text.hexValue? b with
    | some high, some low => (high * 16 + low) :: decodePercent rest
    | _, _ => 0x25 :: decodePercent (a :: b :: rest)
  | b :: rest => b :: decodePercent rest
  | [] => []

end GitRemote.Url
