import GitRemote.Proofs.Pathspec.Compare
import GitRemote.Proofs.Text.Utf8

/-!
# Comparing texts by their bytes

Folding takes each character to another one, and its bytes to the bytes of that. So texts that are
compared byte by byte, at their beginnings or at their ends, are compared character by character.
-/

namespace GitRemote

/-- A character as it is compared. -/
def foldChar (icase : Bool) (c : Char) : Char := if icase then c.toLower else c

/-- The bytes of some characters. -/
def textBytes (cs : List Char) : Bytes := cs.flatMap String.utf8EncodeChar

theorem textBytes_append (as bs : List Char) : textBytes (as ++ bs) = textBytes as ++ textBytes bs :=
  List.flatMap_append

theorem encode_eq_textBytes (s : String) : Utf8.encode s = textBytes s.toList := Utf8.encode_eq s

/-- A character beyond ASCII is not folded. -/
theorem toLower_of_le {c : Char} (h : 0x80 ≤ c.toNat) : c.toLower = c := by
  refine dif_neg ?_
  rintro ⟨-, hupper⟩
  have hle : c.toNat ≤ 'Z'.toNat := UInt32.le_iff_toNat_le.mp hupper
  have hz : 'Z'.toNat = 90 := rfl
  omega

/-- An ASCII character stays one when it is folded. -/
theorem toNat_toLower_lt {c : Char} (h : c.toNat < 0x80) : c.toLower.toNat < 0x80 := by
  have hall : ∀ n < 0x80, (Char.ofNat n).toLower.toNat < 0x80 := by decide
  rw [← Char.ofNat_toNat c]
  exact hall _ h

/-- Folding a character folds its bytes. -/
theorem utf8EncodeChar_toLower (c : Char) :
    String.utf8EncodeChar c.toLower = (String.utf8EncodeChar c).map lowerByte := by
  by_cases hc : c.toNat < 0x80
  · have hall : ∀ n < 0x80, String.utf8EncodeChar (Char.ofNat n).toLower =
        (String.utf8EncodeChar (Char.ofNat n)).map lowerByte := by decide +kernel
    rw [← Char.ofNat_toNat c]
    exact hall _ hc
  · rw [toLower_of_le (by omega)]
    have hkept : ∀ b ∈ String.utf8EncodeChar c, lowerByte b = id b := by
      intro b hb
      have hhigh := Utf8.le_of_mem_utf8EncodeChar hb (by omega)
      rw [lowerByte, if_neg]
      · rfl
      · rintro ⟨-, hletter⟩
        have hle := UInt8.le_iff_toNat_le.mp hletter
        have hz : (0x5A : UInt8).toNat = 90 := rfl
        omega
    rw [List.map_congr_left hkept, List.map_id]

variable {icase : Bool} {cs text : List Char}

/-- Folding a text folds its bytes. -/
theorem textBytes_foldChar (icase : Bool) (cs : List Char) :
    textBytes (cs.map (foldChar icase)) = (textBytes cs).map (foldByte icase) := by
  rw [textBytes, textBytes, List.flatMap_map, List.map_flatMap]
  refine List.flatMap_congr fun c _ => ?_
  cases icase with
  | false => exact (List.map_id _).symm
  | true => exact utf8EncodeChar_toLower c

/-- Texts that fold to the same have as many bytes. -/
theorem length_textBytes_of_fold {as bs : List Char}
    (h : as.map (foldChar icase) = bs.map (foldChar icase)) :
    (textBytes as).length = (textBytes bs).length := by
  rw [← List.length_map (foldByte icase), ← textBytes_foldChar, h, textBytes_foldChar,
    List.length_map]

/-- Only a zero character has a zero byte. -/
theorem nul_not_mem_textBytes (h : '\x00' ∉ cs) : 0 ∉ textBytes cs := by
  intro hmem
  obtain ⟨c, hc, hb⟩ := List.mem_flatMap.mp hmem
  rw [(Utf8.mem_utf8EncodeChar (by decide)).mp hb] at hc
  exact h hc

/-- Two characters match if they are the same when folded. -/
theorem sameChar_iff {o : Glob.Options} {a b : Char} :
    Glob.sameChar o a b = true ↔ foldChar o.icase a = foldChar o.icase b := by
  rw [Glob.sameChar, foldChar, foldChar]
  cases o.icase with
  | false => simp
  | true =>
    simp only [Bool.true_and, ite_true, Bool.or_eq_true, Bool.and_eq_true, beq_iff_eq,
      decide_eq_true_eq]
    constructor
    · rintro (rfl | ⟨-, h⟩)
      · rfl
      · exact h
    · intro h
      by_cases ha : a.toNat < 128
      · by_cases hb : b.toNat < 128
        · exact .inr ⟨⟨ha, hb⟩, h⟩
        · have hlow := toNat_toLower_lt ha
          rw [h, toLower_of_le (by omega)] at hlow
          omega
      · rw [toLower_of_le (c := a) (by omega)] at h
        by_cases hb : b.toNat < 128
        · have hlow := toNat_toLower_lt hb
          rw [← h] at hlow
          omega
        · rw [toLower_of_le (c := b) (by omega)] at h
          exact .inl h

/-- A text agrees with the bytes of some characters at its front if it starts with such characters. -/
theorem agreeUpTo_front (hnul : '\x00' ∉ cs) (more : List Char) :
    agreeUpTo icase (textBytes cs).length (textBytes (cs ++ more)) (textBytes text) = true ↔
      ∃ front back, text = front ++ back ∧
        front.map (foldChar icase) = cs.map (foldChar icase) := by
  rw [textBytes_append, agreeUpTo_append (Nat.le_refl _),
    agreeUpTo_of_not_mem (nul_not_mem_textBytes hnul) (Nat.le_refl _), List.take_length,
    ← textBytes_foldChar]
  constructor
  · rintro ⟨-, hfront⟩
    have hsplit : textBytes (cs.map (foldChar icase)) ++
        ((textBytes text).drop (textBytes cs).length).map (foldByte icase) =
          textBytes (text.map (foldChar icase)) := by
      rw [← hfront, ← List.map_append, List.take_append_drop, textBytes_foldChar]
    obtain ⟨back', htext, -⟩ := Utf8.exists_of_flatMap_append hsplit
    obtain ⟨front, back, rfl, hmap, -⟩ := List.map_eq_append_iff.mp htext
    exact ⟨front, back, rfl, hmap⟩
  · rintro ⟨front, back, rfl, hfront⟩
    have hlength := length_textBytes_of_fold hfront
    rw [textBytes_append, List.length_append]
    refine ⟨by omega, ?_⟩
    rw [List.take_left' hlength, ← textBytes_foldChar, hfront]

/-- A text agrees with the bytes of some characters at its end if it ends with such characters. -/
theorem agreeUpTo_end (hnul : '\x00' ∉ cs) :
    ((textBytes cs).length ≤ (textBytes text).length ∧
      agreeUpTo icase (textBytes cs).length (textBytes cs)
        ((textBytes text).drop ((textBytes text).length - (textBytes cs).length)) = true) ↔
      ∃ front back, text = front ++ back ∧
        back.map (foldChar icase) = cs.map (foldChar icase) := by
  rw [agreeUpTo_of_not_mem (nul_not_mem_textBytes hnul) (Nat.le_refl _), List.take_length,
    ← textBytes_foldChar]
  constructor
  · rintro ⟨hle, -, hback⟩
    have hall : ((textBytes text).drop ((textBytes text).length - (textBytes cs).length)).take
        (textBytes cs).length =
          (textBytes text).drop ((textBytes text).length - (textBytes cs).length) := by
      apply List.take_of_length_le
      rw [List.length_drop]
      omega
    rw [hall] at hback
    have hsplit : ((textBytes text).take ((textBytes text).length - (textBytes cs).length)).map
        (foldByte icase) ++ textBytes (cs.map (foldChar icase)) =
          textBytes (text.map (foldChar icase)) := by
      rw [← hback, ← List.map_append, List.take_append_drop, textBytes_foldChar]
    obtain ⟨front', htext, -⟩ := Utf8.exists_of_append_flatMap hsplit
    obtain ⟨front, back, rfl, -, hmap⟩ := List.map_eq_append_iff.mp htext
    exact ⟨front, back, rfl, hmap⟩
  · rintro ⟨front, back, rfl, hback⟩
    have hlength := length_textBytes_of_fold hback
    have hdrop : (textBytes (front ++ back)).drop
        ((textBytes (front ++ back)).length - (textBytes cs).length) = textBytes back := by
      rw [textBytes_append, List.length_append, ← hlength, Nat.add_sub_cancel,
        List.drop_left]
    rw [hdrop, ← hlength, List.take_length, ← textBytes_foldChar, hback]
    refine ⟨?_, Nat.le_refl _, rfl⟩
    rw [textBytes_append, List.length_append]
    omega

end GitRemote
