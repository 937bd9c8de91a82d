import GitRemote.Zlib.Inflate

/-!
# Streams without compression

A compressor is free to choose among the streams that inflate to its data. `stored` makes the plainest
choice, blocks that hold their bytes as they are.
-/

namespace GitRemote.Zlib

/-- The most bytes that one such block can hold. -/
def storedLimit : Nat := 65535

/-- The two bytes of a little-endian number. -/
def littleEndian16 (n : Nat) : Bytes := [UInt8.ofNat n, UInt8.ofNat (n / 256)]

/-- The four bytes of a big-endian number. -/
def bigEndian32 (n : Nat) : Bytes :=
  [UInt8.ofNat (n / 16777216), UInt8.ofNat (n / 65536), UInt8.ofNat (n / 256), UInt8.ofNat n]

/-- One block of bytes as they are. -/
def storedBytes (last : Bool) (data : Bytes) : Bytes :=
  (if last then 1 else 0) ::
    (littleEndian16 data.length ++ littleEndian16 (65535 - data.length) ++ data)

/-- Blocks for all of the data. Every block but the last is full, so `fuel` need not exceed the
number of bytes. -/
def storedBlocks : Nat → Bytes → Bytes
  | 0, data => storedBytes true data
  | fuel + 1, data =>
    if data.length ≤ storedLimit then storedBytes true data
    else storedBytes false (data.take storedLimit) ++ storedBlocks fuel (data.drop storedLimit)

/-- A zlib stream with the given data, not compressed. -/
def stored (data : Bytes) : Bytes :=
  0x78 :: 0x01 :: (storedBlocks data.length data ++ bigEndian32 (adler32 data))

end GitRemote.Zlib
