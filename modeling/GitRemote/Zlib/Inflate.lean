import GitRemote.Text.Utf8

/-!
# Inflating compressed data

The deflate format over a list of bits, and the zlib container around it: a two-byte header, the
compressed blocks and an Adler-32 sum of the inflated data. What follows the sum is not read.
`inflate?` answers nothing for input that is malformed or cut short.
-/

namespace GitRemote.Zlib

/-- The bits of a byte, the least significant first. -/
def byteBits (b : UInt8) : List Bool := (List.range 8).map b.toNat.testBit

/-- The bits of a byte string in the order in which the format reads them. -/
def bitsOf (data : Bytes) : List Bool := data.flatMap byteBits

/-- A reader of bits that may fail. -/
abbrev BitReader := StateT (List Bool) Option

/-- Reads one bit. -/
def bit : BitReader Bool
  | [] => none
  | b :: rest => some (b, rest)

/-- Reads a number of the given width, the least significant bit first. -/
def number : Nat → BitReader Nat
  | 0 => pure 0
  | width + 1 => do
    let low ← bit
    let high ← number width
    pure (low.toNat + 2 * high)

/-- Skips to the next byte boundary. The input is a whole number of bytes, so what is left tells how
far the current byte was read. -/
def align : BitReader Unit
  | bits => some ((), bits.drop (bits.length % 8))

/-- Reads a number of whole bytes. -/
def octets : Nat → BitReader Bytes
  | 0 => pure []
  | n + 1 => do
    let b ← number 8
    let rest ← octets n
    pure (UInt8.ofNat b :: rest)

/-- A canonical prefix code: the symbols of each code length, from length one on, in the order of
their codes. -/
abbrev Code := List (List Nat)

/-- The code in which symbol `i` has the length `lengths[i]`, zero for a symbol that is not used. -/
def codeOfLengths (lengths : List Nat) : Code :=
  (List.range 15).map fun n =>
    (lengths.zipIdx.filter fun (len, _) => len == n + 1).map (·.2)

/-- How many codes are left free below the given number of free ones, or nothing if some symbol
finds none. -/
def spare? : Nat → Code → Option Nat
  | free, [] => some free
  | free, symbols :: longer =>
    if symbols.length ≤ 2 * free then spare? (2 * free - symbols.length) longer else none

/-- A code is complete if no code word is assigned twice and none is left over. -/
def Code.complete (code : Code) : Bool := spare? 1 code == some 0

/-- A code for literals or distances is usable if it is complete, has no symbol, or has a single one of
length one. -/
def Code.usable (code : Code) : Bool :=
  code.complete || code.flatten.isEmpty ||
    (code.flatten.length == 1 && code.head?.any (·.length == 1))

/-- Reads a symbol: `word` is the code word read so far and `first` the first word of the length at
hand. -/
def symbolFrom : Code → Nat → Nat → BitReader Nat
  | [], _, _ => failure
  | symbols :: longer, word, first => do
    let b ← bit
    let word := word + b.toNat
    if word < first + symbols.length then
      match symbols[word - first]? with
      | some s => pure s
      | none => failure
    else symbolFrom longer (2 * word) (2 * (first + symbols.length))

/-- Reads a symbol of a code. -/
def symbol (code : Code) : BitReader Nat := symbolFrom code 0 0

/-- Base length and number of extra bits of the length symbols, from symbol 257 on. -/
def lengthTable : List (Nat × Nat) :=
  [(3, 0), (4, 0), (5, 0), (6, 0), (7, 0), (8, 0), (9, 0), (10, 0), (11, 1), (13, 1), (15, 1),
   (17, 1), (19, 2), (23, 2), (27, 2), (31, 2), (35, 3), (43, 3), (51, 3), (59, 3), (67, 4),
   (83, 4), (99, 4), (115, 4), (131, 5), (163, 5), (195, 5), (227, 5), (258, 0)]

/-- Base distance and number of extra bits of the distance symbols. -/
def distanceTable : List (Nat × Nat) :=
  [(1, 0), (2, 0), (3, 0), (4, 0), (5, 1), (7, 1), (9, 2), (13, 2), (17, 3), (25, 3), (33, 4),
   (49, 4), (65, 5), (97, 5), (129, 6), (193, 6), (257, 7), (385, 7), (513, 8), (769, 8),
   (1025, 9), (1537, 9), (2049, 10), (3073, 10), (4097, 11), (6145, 11), (8193, 12),
   (12289, 12), (16385, 13), (24577, 13)]

/-- Reads the extra bits of a length or distance symbol. -/
def extended (table : List (Nat × Nat)) (i : Nat) : BitReader Nat :=
  match table[i]? with
  | some (base, extra) => do
    let more ← number extra
    pure (base + more)
  | none => failure

/-- Repeats `count` bytes that start `distance` bytes before the end of the output; they may reach
into what is being written. The output counts as preceded by zeros. -/
def copyBack (distance : Nat) : Nat → Array UInt8 → Array UInt8
  | 0, out => out
  | count + 1, out =>
    let b := if distance ≤ out.size then (out[out.size - distance]?).getD 0 else 0
    copyBack distance count (out.push b)

/-- Inflates the symbols of a block up to its end mark. Each symbol takes at least one bit, so
`fuel` bits are enough. -/
def blockBody (literals distances : Code) : Nat → Array UInt8 → BitReader (Array UInt8)
  | 0, _ => failure
  | fuel + 1, out => do
    let s ← symbol literals
    if s < 256 then blockBody literals distances fuel (out.push (UInt8.ofNat s))
    else if s == 256 then pure out
    else do
      let count ← extended lengthTable (s - 257)
      let d ← symbol distances
      let distance ← extended distanceTable d
      blockBody literals distances fuel (copyBack distance count out)

/-- The literal code of blocks that carry no code of their own. -/
def fixedLiterals : Code :=
  codeOfLengths
    (List.replicate 144 8 ++ List.replicate 112 9 ++ List.replicate 24 7 ++ List.replicate 8 8)

/-- The distance code of blocks that carry no code of their own. -/
def fixedDistances : Code := codeOfLengths (List.replicate 30 5)

/-- The order in which the lengths of the length code are sent. -/
def lengthOrder : List Nat :=
  [16, 17, 18, 0, 8, 7, 9, 6, 10, 5, 11, 4, 12, 3, 13, 2, 14, 1, 15]

/-- Reads run-length coded code lengths until there are `total`; a run past the end is refused. -/
def codeLengths (code : Code) (total : Nat) : Nat → List Nat → BitReader (List Nat)
  | 0, _ => failure
  | fuel + 1, done =>
    if done.length == total then pure done
    else if total < done.length then failure
    else do
      let s ← symbol code
      if s < 16 then codeLengths code total fuel (done ++ [s])
      else if s == 16 then
        match done.getLast? with
        | some last => do
          let n ← number 2
          codeLengths code total fuel (done ++ List.replicate (3 + n) last)
        | none => failure
      else if s == 17 then do
        let n ← number 3
        codeLengths code total fuel (done ++ List.replicate (3 + n) 0)
      else do
        let n ← number 7
        codeLengths code total fuel (done ++ List.replicate (11 + n) 0)

/-- Reads a list of three-bit numbers. -/
def threeBitNumbers : Nat → BitReader (List Nat)
  | 0 => pure []
  | n + 1 => do
    let x ← number 3
    let rest ← threeBitNumbers n
    pure (x :: rest)

/-- Reads the two codes at the head of a block. -/
def ownCodes : BitReader (Code × Code) := do
  let literalCount ← number 5
  let distanceCount ← number 5
  let lengthCount ← number 4
  let literalCount := literalCount + 257
  let distanceCount := distanceCount + 1
  if literalCount > 286 || distanceCount > 30 then failure
  let sent ← threeBitNumbers (lengthCount + 4)
  let placed := lengthOrder.zip sent
  let lengthCode := codeOfLengths ((List.range 19).map fun i => (placed.lookup i).getD 0)
  if !lengthCode.complete then failure
  let total := literalCount + distanceCount
  let lengths ← codeLengths lengthCode total (total + 1) []
  let literals := codeOfLengths (lengths.take literalCount)
  let distances := codeOfLengths (lengths.drop literalCount)
  if literals.usable && distances.usable then pure (literals, distances) else failure

/-- Inflates a block that holds its bytes as they are: a length, its complement, the bytes. -/
def storedBlock (out : Array UInt8) : BitReader (Array UInt8) := do
  align
  let len ← number 16
  let check ← number 16
  if len + check != 65535 then failure
  let data ← octets len
  pure (out ++ data.toArray)

/-- Inflates blocks up to and including the one that is marked as the last. -/
def blocks : Nat → Array UInt8 → BitReader (Array UInt8)
  | 0, _ => failure
  | fuel + 1, out => do
    let last ← bit
    let form ← number 2
    let out ←
      match form with
      | 0 => storedBlock out
      | 1 => blockBody fixedLiterals fixedDistances (fuel + 1) out
      | 2 => do
        let (literals, distances) ← ownCodes
        blockBody literals distances (fuel + 1) out
      | _ => failure
    if last then pure out else blocks fuel out

/-- The Adler-32 sum of some data. -/
def adler32 (data : Bytes) : Nat :=
  let (a, b) := data.foldl (fun (a, b) x =>
    let a := (a + x.toNat) % 65521
    (a, (b + a) % 65521)) (1, 0)
  b * 65536 + a

/-- The value of a big-endian number. -/
def bigEndian (b : Bytes) : Nat := b.foldl (fun n x => n * 256 + x.toNat) 0

/-- Whether two bytes are a header that names the deflate method, a window of at most 32 KiB and no
preset dictionary. -/
def headerOk (method flags : UInt8) : Bool :=
  (method.toNat * 256 + flags.toNat) % 31 == 0 && method.toNat % 16 == 8 &&
    method.toNat / 16 ≤ 7 && !flags.toNat.testBit 5

/-- The data of a zlib stream. -/
def inflate? : Bytes → Option Bytes
  | method :: flags :: rest =>
    if headerOk method flags then
      let bits := bitsOf rest
      match (do
          let out ← blocks (bits.length + 1) #[]
          align
          let sum ← octets 4
          pure (out.toList, bigEndian sum) : BitReader (Bytes × Nat)) bits with
      | some ((out, sum), _) => if adler32 out == sum then some out else none
      | none => none
    else none
  | _ => none

end GitRemote.Zlib
