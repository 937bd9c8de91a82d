import GitRemote.Zlib.Stored
import Mathlib.Tactic.Ring

/-!
# Written streams are inflated again

The bits of a number give the number, and those of bytes the bytes. A block that holds its bytes as
they are adds them to what was inflated before it, so the blocks of some data and the sum behind them
are inflated to the data.
-/

namespace GitRemote.Zlib

/-! ### Numbers and bytes -/

/-- A reader goes on where another one stopped. -/
theorem bind_of_eq_some {α β : Type} {read : BitReader α} {next : α → BitReader β}
    {bits rest : List Bool} {a : α} (h : read bits = some (a, rest)) :
    (read >>= next) bits = next a rest := by
  show (read bits >>= fun out => next out.1 out.2) = next a rest
  rw [h]
  rfl

/-- The number that bits write, the least significant first. -/
def valueOf (bits : List Bool) : Nat := bits.foldr (fun b n => b.toNat + 2 * n) 0

/-- The bits that come first are worth least. -/
theorem valueOf_append (low high : List Bool) :
    valueOf (low ++ high) = valueOf low + 2 ^ low.length * valueOf high := by
  induction low with
  | nil => simp [valueOf]
  | cons b low ih =>
    rw [valueOf, valueOf, List.cons_append, List.foldr_cons, List.foldr_cons, ← valueOf, ← valueOf,
      ih, List.length_cons, Nat.pow_succ']
    ring

/-- A number is read from its bits. -/
theorem number_append (bits rest : List Bool) :
    number bits.length (bits ++ rest) = some (valueOf bits, rest) := by
  induction bits with
  | nil => rfl
  | cons b bits ih =>
    rw [List.length_cons, List.cons_append, number, bind_of_eq_some (a := b) rfl,
      bind_of_eq_some ih]
    rfl

/-- The lowest bits of a number write its remainder. -/
theorem valueOf_testBits (width n : Nat) :
    valueOf ((List.range width).map n.testBit) = n % 2 ^ width := by
  induction width with
  | zero => simp [valueOf, Nat.mod_one]
  | succ width ih =>
    rw [List.range_succ, List.map_append, valueOf_append, ih, Nat.mod_pow_succ]
    simp [valueOf, Nat.toNat_testBit]

theorem length_byteBits (b : UInt8) : (byteBits b).length = 8 := rfl

theorem valueOf_byteBits (b : UInt8) : valueOf (byteBits b) = b.toNat := by
  rw [byteBits, valueOf_testBits]
  exact Nat.mod_eq_of_lt b.toNat_lt

theorem bitsOf_cons (b : UInt8) (data : Bytes) : bitsOf (b :: data) = byteBits b ++ bitsOf data :=
  List.flatMap_cons

theorem bitsOf_append (a b : Bytes) : bitsOf (a ++ b) = bitsOf a ++ bitsOf b :=
  List.flatMap_append

theorem length_bitsOf (data : Bytes) : (bitsOf data).length = 8 * data.length := by
  induction data with
  | nil => rfl
  | cons b data ih =>
    rw [bitsOf_cons, List.length_append, ih, length_byteBits, List.length_cons]
    omega

/-- Bytes are read from their bits. -/
theorem octets_bitsOf (data : Bytes) (rest : List Bool) :
    octets data.length (bitsOf data ++ rest) = some (data, rest) := by
  induction data with
  | nil => rfl
  | cons b data ih =>
    have hbyte : number 8 (byteBits b ++ (bitsOf data ++ rest)) =
        some (b.toNat, bitsOf data ++ rest) := by
      rw [← valueOf_byteBits b]
      exact number_append (byteBits b) _
    rw [List.length_cons, bitsOf_cons, List.append_assoc, octets, bind_of_eq_some hbyte,
      bind_of_eq_some ih, UInt8.ofNat_toNat]
    rfl

/-- A number of sixteen bits is read from its two bytes. -/
theorem number_littleEndian16 {n : Nat} (h : n < 65536) (rest : List Bool) :
    number 16 (bitsOf (littleEndian16 n) ++ rest) = some (n, rest) := by
  have hvalue : valueOf (bitsOf (littleEndian16 n)) = n := by
    have hlow : (UInt8.ofNat n).toNat = n % 256 := UInt8.toNat_ofNat'
    have hhigh : (UInt8.ofNat (n / 256)).toNat = n / 256 := by
      rw [UInt8.toNat_ofNat']
      omega
    rw [littleEndian16, bitsOf_cons, bitsOf_cons, valueOf_append, valueOf_append, valueOf_byteBits,
      valueOf_byteBits, hlow, hhigh]
    show n % 256 + 2 ^ 8 * (n / 256 + 2 ^ 8 * 0) = n
    omega
  have hread := number_append (bitsOf (littleEndian16 n)) rest
  rwa [hvalue, length_bitsOf] at hread

/-- The bits up to the next whole byte are skipped. -/
theorem align_append (pad : List Bool) (h : pad.length < 8) (data : Bytes) :
    align (pad ++ bitsOf data) = some ((), bitsOf data) := by
  have hpad : (pad ++ bitsOf data).length % 8 = pad.length := by
    rw [List.length_append, length_bitsOf, Nat.add_mul_mod_self_left, Nat.mod_eq_of_lt h]
  rw [align, hpad, List.drop_left]

/-! ### Blocks -/

/-- The bytes of a block that holds them as they are, behind its form. -/
theorem storedBlock_append (pad : List Bool) (hpad : pad.length < 8) {data : Bytes}
    (h : data.length ≤ storedLimit) (out : Array UInt8) (rest : Bytes) :
    storedBlock out (pad ++ bitsOf (littleEndian16 data.length ++
        littleEndian16 (65535 - data.length) ++ data ++ rest)) =
      some (out ++ data.toArray, bitsOf rest) := by
  rw [storedLimit] at h
  have hlength := number_littleEndian16 (n := data.length) (by omega)
  have hcheck := number_littleEndian16 (n := 65535 - data.length) (by omega)
  have hsum : (data.length + (65535 - data.length) != 65535) = false := by
    rw [Nat.add_sub_cancel' h]
    rfl
  rw [storedBlock, bind_of_eq_some (align_append pad hpad _)]
  simp only [bitsOf_append, List.append_assoc]
  rw [bind_of_eq_some (hlength _), bind_of_eq_some (hcheck _), hsum]
  exact bind_of_eq_some (octets_bitsOf data (bitsOf rest))

/-- A block that holds its bytes as they are adds them to the output. -/
theorem blocks_storedBytes {data : Bytes} (h : data.length ≤ storedLimit) (last : Bool)
    (fuel : Nat) (out : Array UInt8) (rest : Bytes) :
    blocks (fuel + 1) out (bitsOf (storedBytes last data ++ rest)) =
      if last then some (out ++ data.toArray, bitsOf rest)
      else blocks fuel (out ++ data.toArray) (bitsOf rest) := by
  have hbits : bitsOf (storedBytes last data ++ rest) =
      last :: ([false, false] ++ (List.replicate 5 false ++ bitsOf (littleEndian16 data.length ++
        littleEndian16 (65535 - data.length) ++ data ++ rest))) := by
    rw [storedBytes, List.cons_append, bitsOf_cons]
    cases last <;> rfl
  have hform := number_append [false, false]
  have hblock := storedBlock_append (List.replicate 5 false) (by decide) h out rest
  rw [hbits, blocks, bind_of_eq_some (a := last) rfl]
  refine (bind_of_eq_some (hform _)).trans ((bind_of_eq_some hblock).trans ?_)
  cases last <;> rfl

/-- The blocks of some data are inflated to the data. -/
theorem blocks_storedBlocks {count fuel : Nat} {data : Bytes}
    (hcount : data.length ≤ count ∨ data.length ≤ storedLimit) (rest : Bytes)
    (hfuel : (storedBlocks count data).length < fuel) (out : Array UInt8) :
    blocks fuel out (bitsOf (storedBlocks count data ++ rest)) =
      some (out ++ data.toArray, bitsOf rest) := by
  obtain ⟨fuel, rfl⟩ : ∃ k, fuel = k + 1 := ⟨fuel - 1, by omega⟩
  induction count generalizing fuel data out with
  | zero =>
    have hshort : data.length ≤ storedLimit := hcount.elim (Nat.le_trans · (Nat.zero_le _)) id
    rw [storedBlocks, blocks_storedBytes hshort, if_pos rfl]
  | succ count ih =>
    by_cases hshort : data.length ≤ storedLimit
    · rw [storedBlocks, if_pos hshort, blocks_storedBytes hshort, if_pos rfl]
    · rw [storedBlocks, if_neg hshort] at hfuel ⊢
      have htake : (data.take storedLimit).length ≤ storedLimit := List.length_take_le ..
      have hdrop : (data.drop storedLimit).length ≤ count := by
        rw [List.length_drop, storedLimit]
        omega
      have hless : (storedBlocks count (data.drop storedLimit)).length < fuel := by
        rw [List.length_append, storedBytes, List.length_cons] at hfuel
        omega
      obtain ⟨fuel, rfl⟩ : ∃ k, fuel = k + 1 := ⟨fuel - 1, by omega⟩
      have hjoin : (data.take storedLimit).toArray ++ (data.drop storedLimit).toArray =
          data.toArray := by simp
      rw [List.append_assoc, blocks_storedBytes htake, if_neg Bool.false_ne_true,
        ih (.inl hdrop) _ fuel hless, Array.append_assoc, hjoin]

/-! ### Streams -/

/-- A number below the bound of four bytes is read back from them. -/
theorem bigEndian_bigEndian32 {n : Nat} (h : n < 2 ^ 32) : bigEndian (bigEndian32 n) = n := by
  have hbyte (k : Nat) : (UInt8.ofNat k).toNat = k % 256 := UInt8.toNat_ofNat'
  simp only [bigEndian, bigEndian32, List.foldl_cons, List.foldl_nil, hbyte]
  omega

/-- A checksum fits four bytes. -/
theorem adler32_lt (data : Bytes) : adler32 data < 2 ^ 32 := by
  rw [adler32]
  split
  next a b hfold =>
    have hsums : (a, b).1 < 65521 ∧ (a, b).2 < 65521 := by
      rw [← hfold]
      exact List.foldlRecOn (motive := fun s : Nat × Nat => s.1 < 65521 ∧ s.2 < 65521) data _
        ⟨by decide, by decide⟩
        fun _ _ _ _ => ⟨Nat.mod_lt _ (by decide), Nat.mod_lt _ (by decide)⟩
    obtain ⟨hlow, hhigh⟩ := hsums
    dsimp only at hlow hhigh
    omega

/-- Data that was written as a stream is inflated again. -/
theorem inflate?_stored (data : Bytes) : inflate? (stored data) = some data := by
  have hheader : headerOk 0x78 0x01 = true := by decide
  have hfuel : (storedBlocks data.length data).length <
      (bitsOf (storedBlocks data.length data ++ bigEndian32 (adler32 data))).length + 1 := by
    rw [length_bitsOf, List.length_append]
    omega
  have hblocks := blocks_storedBlocks (.inl (Nat.le_refl data.length))
    (bigEndian32 (adler32 data)) hfuel #[]
  have halign : align (bitsOf (bigEndian32 (adler32 data))) =
      some ((), bitsOf (bigEndian32 (adler32 data))) :=
    align_append [] (by decide) (bigEndian32 (adler32 data))
  have hsum : octets 4 (bitsOf (bigEndian32 (adler32 data))) =
      some (bigEndian32 (adler32 data), []) := by
    have hread := octets_bitsOf (bigEndian32 (adler32 data)) []
    rwa [List.append_nil] at hread
  rw [stored, inflate?, if_pos hheader]
  dsimp only
  rw [bind_of_eq_some hblocks, bind_of_eq_some halign, bind_of_eq_some hsum,
    bigEndian_bigEndian32 (adler32_lt data)]
  have hdata : (#[] ++ data.toArray).toList = data := by simp
  rw [hdata]
  exact if_pos (beq_self_eq_true _)

end GitRemote.Zlib
