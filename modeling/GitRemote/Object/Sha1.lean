import GitRemote.Text.Utf8

/-!
# SHA-1

The digest of a message: the message is padded to whole blocks of sixteen words, and each block is
mixed into five words of state in eighty rounds.
-/

namespace GitRemote.Sha1

/-- The five words of state. -/
structure State where
  a : UInt32
  b : UInt32
  c : UInt32
  d : UInt32
  e : UInt32

/-- The state before the first block. -/
def State.start : State := ⟨0x67452301, 0xEFCDAB89, 0x98BADCFE, 0x10325476, 0xC3D2E1F0⟩

/-- Rotates a word to the left. -/
def rotate (x n : UInt32) : UInt32 := (x <<< n) ||| (x >>> (32 - n))

/-- The mixing function and the constant of a round. -/
def roundMix (t : Nat) (b c d : UInt32) : UInt32 × UInt32 :=
  if t < 20 then ((b &&& c) ||| (~~~b &&& d), 0x5A827999)
  else if t < 40 then (b ^^^ c ^^^ d, 0x6ED9EBA1)
  else if t < 60 then ((b &&& c) ||| (b &&& d) ||| (c &&& d), 0x8F1BBCDC)
  else (b ^^^ c ^^^ d, 0xCA62C1D6)

/-- One round with the message word `w`. -/
def round (t : Nat) (w : UInt32) (s : State) : State :=
  let (f, k) := roundMix t s.b s.c s.d
  ⟨rotate s.a 5 + f + s.e + k + w, s.a, rotate s.b 30, s.c, s.d⟩

/-- The message word sixteen places after the first of a window of sixteen. -/
def nextWord (window : List UInt32) : UInt32 :=
  rotate (window.getD 13 0 ^^^ window.getD 8 0 ^^^ window.getD 2 0 ^^^ window.getD 0 0) 1

/-- The rounds from `t` on, over a window of the message words. -/
def rounds : Nat → Nat → List UInt32 → State → State
  | 0, _, _, s => s
  | n + 1, t, window, s =>
    rounds n (t + 1) (window.drop 1 ++ [nextWord window]) (round t (window.getD 0 0) s)

/-- Mixes a block of sixteen words into the state. -/
def absorb (s : State) (block : List UInt32) : State :=
  let r := rounds 80 0 block s
  ⟨s.a + r.a, s.b + r.b, s.c + r.c, s.d + r.d, s.e + r.e⟩

/-- Mixes a number of blocks into the state. -/
def absorbAll : Nat → List UInt32 → State → State
  | 0, _, s => s
  | n + 1, ws, s => absorbAll n (ws.drop 16) (absorb s (ws.take 16))

/-- The words of a message whose length is a multiple of four. -/
def wordsOf : Bytes → List UInt32
  | a :: b :: c :: d :: rest =>
    ((a.toUInt32 <<< 24) ||| (b.toUInt32 <<< 16) ||| (c.toUInt32 <<< 8) ||| d.toUInt32)
      :: wordsOf rest
  | _ => []

/-- The bytes of a word, the most significant first. -/
def wordBytes (w : UInt32) : Bytes :=
  [(w >>> 24).toUInt8, (w >>> 16).toUInt8, (w >>> 8).toUInt8, w.toUInt8]

/-- The padding after a message of `n` bytes: a one bit, zeros, and the length in bits. -/
def padding (n : Nat) : Bytes :=
  let bits := UInt64.ofNat (8 * n)
  0x80 :: (List.replicate ((119 - n % 64) % 64) (0 : UInt8) ++
    (wordBytes (bits >>> 32).toUInt32 ++ wordBytes bits.toUInt32))

/-- The twenty bytes of a digest. -/
def State.output (s : State) : Bytes :=
  wordBytes s.a ++ wordBytes s.b ++ wordBytes s.c ++ wordBytes s.d ++ wordBytes s.e

/-- A digest has twenty bytes. -/
@[simp] theorem State.length_output (s : State) : s.output.length = 20 := rfl

/-- The SHA-1 digest of a message. -/
def digest (message : Bytes) : Bytes :=
  let words := wordsOf (message ++ padding message.length)
  (absorbAll (words.length / 16) words State.start).output

/-- A digest has twenty bytes. -/
@[simp] theorem length_digest (message : Bytes) : (digest message).length = 20 :=
  State.length_output _

end GitRemote.Sha1
