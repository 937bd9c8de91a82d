import GitRemote.Text.Utf8
import Mathlib.Data.List.Basic

/-!
# Text and its bytes

A text is written character by character. Reading with replacement reads each character of a text in
turn, so of a text's bytes nothing is replaced.
-/

namespace GitRemote.Utf8

/-- A text is written character by character. -/
theorem encode_ofList (cs : List Char) :
    encode (String.ofList cs) = cs.flatMap String.utf8EncodeChar := by
  show (String.ofList cs).toByteArray.data.toList = _
  rw [String.toByteArray_ofList, List.utf8Encode]
  simp

theorem encode_eq (s : String) : encode s = s.toList.flatMap String.utf8EncodeChar := by
  rw [← encode_ofList, String.ofList_toList]

/-- An ASCII character is written as its own byte. -/
theorem utf8EncodeChar_ascii {c : Char} (h : c.toNat < 0x80) :
    String.utf8EncodeChar c = [UInt8.ofNat c.toNat] := by
  have hle : c.val.toNat ≤ 0x7F := by
    rw [Char.toNat] at h
    omega
  rw [String.utf8EncodeChar]
  simp only [hle, ite_true, Char.toNat]

/-- ASCII text has a byte for each character. -/
theorem encode_ascii {cs : List Char} (h : ∀ c ∈ cs, c.toNat < 0x80) :
    encode (String.ofList cs) = cs.map fun c => UInt8.ofNat c.toNat := by
  rw [encode_ofList, ← List.flatMap_singleton' (cs.map _), List.flatMap_map]
  exact List.flatMap_congr fun c hc => utf8EncodeChar_ascii (h c hc)

/-- Every byte of a character that is not ASCII has its highest bit set. -/
theorem le_of_mem_utf8EncodeChar {c : Char} {b : UInt8} (h : b ∈ String.utf8EncodeChar c)
    (hc : 0x80 ≤ c.toNat) : 0x80 ≤ b.toNat := by
  have hvalid : c.val.toNat < 0xD800 ∨ 0xDFFF < c.val.toNat ∧ c.val.toNat < 0x110000 := c.valid
  have hmark {n : Nat} (hlow : 0x80 ≤ n) (hhigh : n < 0x100) : 0x80 ≤ (UInt8.ofNat n).toNat := by
    rw [UInt8.toNat_ofNat']
    omega
  rw [Char.toNat] at hc
  generalize hv : c.val.toNat = v at hvalid hc
  rw [String.utf8EncodeChar] at h
  simp only [hv] at h
  split_ifs at h
  · omega
  all_goals
    simp only [List.mem_cons, List.not_mem_nil, or_false] at h
    rcases h with rfl | h
    · exact hmark (by omega) (by omega)
    · grind

/-- An ASCII byte stands among the bytes of a character only if it is the character's own. -/
theorem mem_utf8EncodeChar {c : Char} {b : UInt8} (hb : b.toNat < 0x80) :
    b ∈ String.utf8EncodeChar c ↔ c = Char.ofNat b.toNat := by
  constructor
  · intro h
    by_cases hc : c.toNat < 0x80
    · rw [utf8EncodeChar_ascii hc, List.mem_singleton] at h
      rw [h, UInt8.toNat_ofNat', Nat.mod_eq_of_lt (by omega), Char.ofNat_toNat]
    · have hmark := le_of_mem_utf8EncodeChar h (by omega)
      omega
  · rintro rfl
    have hnat : (Char.ofNat b.toNat).toNat = b.toNat := by
      have hvalid : b.toNat.isValidChar := Or.inl (by omega)
      rw [Char.ofNat, dif_pos hvalid]
      rfl
    rw [utf8EncodeChar_ascii (by omega), hnat, UInt8.ofNat_toNat]
    exact List.mem_singleton_self b

/-- A text has an ASCII byte among its bytes just if it has the character. -/
theorem mem_encode {s : String} {b : UInt8} (hb : b.toNat < 0x80) :
    b ∈ encode s ↔ Char.ofNat b.toNat ∈ s.toList := by
  rw [encode_eq, List.mem_flatMap]
  simp only [mem_utf8EncodeChar hb, exists_eq_right]

/-! ### Reading with replacement -/

/-- What a lead byte means, by its value. -/
theorem lead_eq (b : UInt8) : lead b =
    if b.toNat < 0x80 then .complete (Char.ofNat b.toNat)
    else if b.toNat < 0xC2 then .malformed
    else if b.toNat < 0xE0 then .opens ⟨0, 0x80, 0xBF, b.toNat - 0xC0⟩
    else if b.toNat = 0xE0 then .opens ⟨1, 0xA0, 0xBF, 0⟩
    else if b.toNat = 0xED then .opens ⟨1, 0x80, 0x9F, 0xD⟩
    else if b.toNat < 0xF0 then .opens ⟨1, 0x80, 0xBF, b.toNat - 0xE0⟩
    else if b.toNat = 0xF0 then .opens ⟨2, 0x90, 0xBF, 0⟩
    else if b.toNat < 0xF4 then .opens ⟨2, 0x80, 0xBF, b.toNat - 0xF0⟩
    else if b.toNat = 0xF4 then .opens ⟨2, 0x80, 0x8F, 4⟩
    else .malformed := by
  simp [lead, UInt8.lt_iff_toNat_lt, ← UInt8.toNat_inj]

theorem toNat_ofNat {n : Nat} (h : n < 256) : (UInt8.ofNat n).toNat = n := by
  rw [UInt8.toNat_ofNat', Nat.mod_eq_of_lt h]

/-- A byte that opens a sequence. -/
theorem charsFrom_opens {b : UInt8} {p : Partial} (h : lead b = .opens p) (rest : Bytes) :
    charsFrom none (b :: rest) = charsFrom (some p) rest := by
  rw [charsFrom, step, start, h]
  rfl

/-- A byte of six bits continues the sequence that it is read in, or completes it. -/
theorem charsFrom_tail {missing value n : Nat} {low high : UInt8} (hn : n < 64)
    (hlow : low.toNat ≤ n + 128) (hhigh : n + 128 ≤ high.toNat) (rest : Bytes) :
    charsFrom (some ⟨missing, low, high, value⟩) (UInt8.ofNat (n + 128) :: rest) =
      match missing with
      | 0 => Char.ofNat (value * 64 + n) :: charsFrom none rest
      | m + 1 => charsFrom (some ⟨m, 0x80, 0xBF, value * 64 + n⟩) rest := by
  have hb : (UInt8.ofNat (n + 128)).toNat = n + 128 := toNat_ofNat (by omega)
  have hvalue : (UInt8.ofNat (n + 128)).toNat - 0x80 = n := by rw [hb, Nat.add_sub_cancel]
  have hin : low ≤ UInt8.ofNat (n + 128) ∧ UInt8.ofNat (n + 128) ≤ high := by
    rw [UInt8.le_iff_toNat_le, UInt8.le_iff_toNat_le, hb]
    exact ⟨hlow, hhigh⟩
  rw [charsFrom, step, resume, if_pos hin, hvalue]
  cases missing <;> rfl

/-! The lead byte of a character of two, three and four bytes. The bounds on the second byte keep out
what has a shorter form, is a surrogate or is no code point. -/

/-- The first byte of a character of two bytes. -/
theorem lead_two {v : Nat} (hlow : 0x80 ≤ v) (hhigh : v < 0x800) :
    lead (UInt8.ofNat (v / 64 % 32 + 192)) = .opens ⟨0, 0x80, 0xBF, v / 64⟩ := by
  have hvalue : v / 64 % 32 + 192 - 0xC0 = v / 64 := by omega
  rw [lead_eq, toNat_ofNat (by omega), if_neg (by omega), if_neg (by omega), if_pos (by omega),
    hvalue]

/-- The first byte of a character of three bytes lets its second byte follow. -/
theorem exists_lead_three {v : Nat} (hlow : 0x800 ≤ v) (hhigh : v < 0x10000)
    (hvalid : v < 0xD800 ∨ 0xDFFF < v) :
    ∃ low high, lead (UInt8.ofNat (v / 4096 % 16 + 224)) = .opens ⟨1, low, high, v / 4096⟩ ∧
      low.toNat ≤ v / 64 % 64 + 128 ∧ v / 64 % 64 + 128 ≤ high.toNat := by
  have hbyte : (UInt8.ofNat (v / 4096 % 16 + 224)).toNat = v / 4096 + 224 := by
    rw [toNat_ofNat (by omega)]
    omega
  rw [lead_eq, hbyte, if_neg (by omega), if_neg (by omega), if_neg (by omega)]
  split_ifs with hfirst hsurrogate hplain
  · exact ⟨0xA0, 0xBF, by congr 2; omega, by simp; omega, by simp; omega⟩
  · exact ⟨0x80, 0x9F, by congr 2; omega, by simp, by simp; omega⟩
  · exact ⟨0x80, 0xBF, by rw [Nat.add_sub_cancel], by simp, by simp; omega⟩
  all_goals omega

/-- The first byte of a character of four bytes lets its second byte follow. -/
theorem exists_lead_four {v : Nat} (hlow : 0x10000 ≤ v) (hhigh : v < 0x110000) :
    ∃ low high, lead (UInt8.ofNat (v / 262144 % 8 + 240)) = .opens ⟨2, low, high, v / 262144⟩ ∧
      low.toNat ≤ v / 4096 % 64 + 128 ∧ v / 4096 % 64 + 128 ≤ high.toNat := by
  have hbyte : (UInt8.ofNat (v / 262144 % 8 + 240)).toNat = v / 262144 + 240 := by
    rw [toNat_ofNat (by omega)]
    omega
  rw [lead_eq, hbyte, if_neg (by omega), if_neg (by omega), if_neg (by omega), if_neg (by omega),
    if_neg (by omega), if_neg (by omega)]
  split_ifs with hfirst hmiddle hlast
  · exact ⟨0x90, 0xBF, by congr 2; omega, by simp; omega, by simp; omega⟩
  · exact ⟨0x80, 0xBF, by rw [Nat.add_sub_cancel], by simp, by simp; omega⟩
  · exact ⟨0x80, 0x8F, by congr 2; omega, by simp, by simp; omega⟩
  all_goals omega

/-- A character is read from its bytes. -/
theorem charsFrom_utf8EncodeChar (c : Char) (rest : Bytes) :
    charsFrom none (String.utf8EncodeChar c ++ rest) = c :: charsFrom none rest := by
  have hvalid : c.val.toNat < 0xD800 ∨ 0xDFFF < c.val.toNat ∧ c.val.toNat < 0x110000 := c.valid
  have hchar : Char.ofNat c.val.toNat = c := Char.ofNat_toNat c
  generalize hv : c.val.toNat = v at hvalid hchar
  rw [String.utf8EncodeChar]
  simp only [hv]
  split_ifs with hone htwo hthree
  · have hlead : lead (UInt8.ofNat v) = .complete c := by
      rw [lead_eq, toNat_ofNat (by omega), if_pos (by omega), hchar]
    rw [List.singleton_append, charsFrom, step, start, hlead]
    rfl
  · have hsum : v / 64 * 64 + v % 64 = v := by omega
    rw [List.cons_append, List.singleton_append, charsFrom_opens (lead_two (by omega) (by omega)),
      charsFrom_tail (by omega) (Nat.le_add_left ..) (by simp; omega), hsum, hchar]
  · obtain ⟨low, high, hlead, hlow, hhigh⟩ :=
      exists_lead_three (v := v) (by omega) (by omega) (by omega)
    have hsum : (v / 4096 * 64 + v / 64 % 64) * 64 + v % 64 = v := by omega
    rw [List.cons_append, List.cons_append, List.singleton_append, charsFrom_opens hlead,
      charsFrom_tail (by omega) hlow hhigh]
    dsimp only
    rw [charsFrom_tail (by omega) (Nat.le_add_left ..) (by simp; omega), hsum, hchar]
  · obtain ⟨low, high, hlead, hlow, hhigh⟩ := exists_lead_four (v := v) (by omega) (by omega)
    have hsum : ((v / 262144 * 64 + v / 4096 % 64) * 64 + v / 64 % 64) * 64 + v % 64 = v := by
      omega
    rw [List.cons_append, List.cons_append, List.cons_append, List.singleton_append,
      charsFrom_opens hlead, charsFrom_tail (by omega) hlow hhigh]
    dsimp only
    rw [charsFrom_tail (by omega) (Nat.le_add_left ..) (by simp; omega)]
    dsimp only
    rw [charsFrom_tail (by omega) (Nat.le_add_left ..) (by simp; omega), hsum, hchar]

/-- The characters in front are read from their bytes, whatever bytes are behind them. -/
theorem charsLossy_append (cs : List Char) (b : Bytes) :
    charsLossy (cs.flatMap String.utf8EncodeChar ++ b) = cs ++ charsLossy b := by
  induction cs with
  | nil => rfl
  | cons c cs ih =>
    rw [List.flatMap_cons, List.append_assoc, charsLossy, charsFrom_utf8EncodeChar, ← charsLossy, ih,
      List.cons_append]

/-- Characters that were encoded are decoded without loss. -/
theorem charsLossy_flatMap (cs : List Char) : charsLossy (cs.flatMap String.utf8EncodeChar) = cs := by
  have hread := charsLossy_append cs []
  rw [List.append_nil] at hread
  rw [hread]
  exact List.append_nil cs

/-- Of the bytes of a text nothing is replaced. -/
theorem charsLossy_encode (s : String) : charsLossy (encode s) = s.toList := by
  rw [encode_eq, charsLossy_flatMap]

/-- A text that was encoded is decoded without loss. -/
theorem decodeLossy_encode (s : String) : decodeLossy (encode s) = s := by
  rw [decodeLossy, charsLossy_encode, String.ofList_toList]

/-! ### Parts of a text -/

/-- Bytes of characters are the same only if the characters are. -/
theorem flatMap_inj {as bs : List Char}
    (h : as.flatMap String.utf8EncodeChar = bs.flatMap String.utf8EncodeChar) : as = bs := by
  rw [← charsLossy_flatMap as, h, charsLossy_flatMap]

/-- What is behind the bytes of some characters are the bytes of the others. -/
theorem exists_of_flatMap_append {as cs : List Char} {b : Bytes}
    (h : as.flatMap String.utf8EncodeChar ++ b = cs.flatMap String.utf8EncodeChar) :
    ∃ bs, cs = as ++ bs ∧ b = bs.flatMap String.utf8EncodeChar := by
  have hread := congrArg charsLossy h
  rw [charsLossy_append, charsLossy_flatMap] at hread
  refine ⟨charsLossy b, hread.symm, ?_⟩
  rw [← hread, List.flatMap_append] at h
  exact List.append_cancel_left h

/-- Of the bytes of a character only the first can be the first one of a character. -/
theorem isFirstByte_iff {c : Char} {before after : Bytes} {b : UInt8}
    (h : String.utf8EncodeChar c = before ++ b :: after) : b.IsUTF8FirstByte ↔ before = [] := by
  have hi : before.length < (String.utf8EncodeChar c).length := by simp [h]
  have hget : (String.utf8EncodeChar c)[before.length] = b := by simp [h]
  rw [← hget, UInt8.isUTF8FirstByte_getElem_utf8EncodeChar, List.length_eq_zero_iff]

/-- What is in front of the bytes of some characters are the bytes of the others, since no character
starts in the middle of another. -/
theorem exists_of_append_flatMap {bs cs : List Char} {b : Bytes}
    (h : b ++ bs.flatMap String.utf8EncodeChar = cs.flatMap String.utf8EncodeChar) :
    ∃ as, cs = as ++ bs ∧ b = as.flatMap String.utf8EncodeChar := by
  induction cs generalizing b with
  | nil =>
    obtain ⟨rfl, hbs⟩ := List.append_eq_nil_iff.mp h
    obtain rfl : bs = [] := flatMap_inj hbs
    exact ⟨[], rfl, rfl⟩
  | cons c cs ih =>
    rw [List.flatMap_cons] at h
    rcases List.append_eq_append_iff.mp h with ⟨tail, hc, hbs⟩ | ⟨behind, rfl, hcs⟩
    · cases tail with
      | nil =>
        rw [List.append_nil] at hc
        exact ⟨[c], congrArg (c :: ·) (flatMap_inj hbs).symm, by simp [hc]⟩
      | cons x tail =>
        cases bs with
        | nil => cases hbs
        | cons d bs =>
          obtain ⟨y, rest, hd⟩ := List.exists_cons_of_ne_nil (String.utf8EncodeChar_ne_nil (c := d))
          rw [List.flatMap_cons, hd] at hbs
          obtain rfl : y = x := (List.cons.inj hbs).1
          have hfirst : y.IsUTF8FirstByte := (isFirstByte_iff hd).mpr rfl
          obtain rfl := (isFirstByte_iff hc).mp hfirst
          exact ⟨[], flatMap_inj h.symm, rfl⟩
    · obtain ⟨as, rfl, rfl⟩ := ih hcs.symm
      exact ⟨c :: as, rfl, rfl⟩

end GitRemote.Utf8
