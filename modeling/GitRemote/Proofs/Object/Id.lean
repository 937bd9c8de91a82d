import GitRemote.Proofs.Wire.Packets

/-!
# Ids and their digits

An id is written as forty digits and read back from them.
-/

namespace GitRemote

/-- A digit is read back as its value. -/
theorem hexValue?_hexDigit_of_lt {v : UInt8} (h : v.toNat < 16) :
    Text.hexValue? (Text.hexDigit v) = some v := by
  have hdigit := hexValue?_hexDigit h
  rwa [UInt8.ofNat_toNat] at hdigit

namespace ObjectId

theorem toNat_div_lt (b : UInt8) : (b / 16).toNat < 16 := by
  have hb := b.toNat_lt
  rw [UInt8.toNat_div]
  show b.toNat / 16 < 16
  omega

theorem toNat_mod_lt (b : UInt8) : (b % 16).toNat < 16 := by
  rw [UInt8.toNat_mod]
  exact Nat.mod_lt _ (by decide)

/-- Every byte is written in two digits. -/
theorem length_flatMap_hexPair (octets : Bytes) :
    (octets.flatMap hexPair).length = 2 * octets.length := by
  induction octets with
  | nil => rfl
  | cons b octets ih =>
    rw [List.flatMap_cons, List.length_append, ih, List.length_cons, hexPair]
    simp only [List.length_cons, List.length_nil]
    omega

theorem length_hexBytes (id : ObjectId) : id.hexBytes.length = 40 := by
  rw [hexBytes, length_flatMap_hexPair, id.size_eq]

/-- What an id is written with are digits. -/
theorem isSome_hexValue?_of_mem_hexBytes {id : ObjectId} {b : UInt8} (h : b ∈ id.hexBytes) :
    (Text.hexValue? b).isSome = true := by
  obtain ⟨octet, -, hb⟩ := List.mem_flatMap.mp h
  rcases List.mem_cons.mp hb with rfl | hb
  · rw [hexValue?_hexDigit_of_lt (toNat_div_lt octet)]
    rfl
  · rw [List.mem_singleton.mp hb, hexValue?_hexDigit_of_lt (toNat_mod_lt octet)]
    rfl

/-- Bytes are read back from their digits. -/
theorem ofHexPairs_flatMap_hexPair (octets : Bytes) (position : Nat) :
    ofHexPairs position (octets.flatMap hexPair) = .ok octets := by
  induction octets generalizing position with
  | nil => rfl
  | cons b octets ih =>
    have hhigh := toNat_div_lt b
    have hlow := toNat_mod_lt b
    have hbyte : b / 16 * 16 + b % 16 = b := by
      apply UInt8.toNat.inj
      have hb := b.toNat_lt
      simp only [UInt8.toNat_add, UInt8.toNat_mul, UInt8.toNat_div, UInt8.toNat_mod]
      show (b.toNat / 16 * 16 % 256 + b.toNat % 16) % 256 = b.toNat
      omega
    rw [List.flatMap_cons, hexPair, List.cons_append, List.cons_append, List.nil_append, ofHexPairs]
    simp only [hexValue?_hexDigit_of_lt hhigh, hexValue?_hexDigit_of_lt hlow, ih, hbyte]
    rfl

/-- An id is read back from its digits. -/
theorem ofHex?_hexBytes (id : ObjectId) : ofHex? id.hexBytes = some id := by
  have hpairs : ofHexPairs 0 id.hexBytes = .ok id.octets := ofHexPairs_flatMap_hexPair _ _
  rw [ofHex?, ofHex, dif_pos id.length_hexBytes]
  split
  · next e h =>
    rw [hpairs] at h
    cases h
  · next out h =>
    rw [hpairs] at h
    cases h
    rfl

end ObjectId

theorem length_uniform (b : UInt8) : (List.replicate 20 b).length = 20 := List.length_replicate

/-- An id of equal bytes. -/
def uniformId (b : UInt8) : ObjectId := ⟨List.replicate 20 b, length_uniform b⟩

end GitRemote
