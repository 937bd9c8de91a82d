import GitRemote.Text.Blank
import GitRemote.Text.Quoted

/-!
# Text that is read line by line

Texts are read back from their bytes. Lines that hold no line feed, each with one at its end, are the
pieces between the line feeds of the text that they make, with an empty piece behind the last. A
quoted message is plain ASCII, so it never ends a line.
-/

namespace GitRemote

/-! ### Texts and their bytes -/

/-- Texts are encoded one after the other. -/
theorem Utf8.encode_append (s t : String) : encode (s ++ t) = encode s ++ encode t := by
  show (s ++ t).toByteArray.data.toList = _
  rw [String.toByteArray_append]
  simp [encode]

/-- A text is read back from its bytes. -/
theorem Utf8.decode?_encode (s : String) : decode? (encode s) = some s := by
  have hbytes : (⟨(encode s).toArray⟩ : ByteArray) = s.toByteArray := by simp [encode]
  rw [decode?, hbytes, String.fromUTF8?, dif_pos s.isValidUTF8]
  rfl

/-- A text that is not empty has bytes. -/
theorem Utf8.encode_ne_nil {s : String} (h : s ≠ "") : encode s ≠ [] := by
  intro hempty
  have hback := decode?_encode s
  rw [hempty] at hback
  exact h (Option.some.inj hback).symm

/-- Bytes that are read as a text are its bytes. -/
theorem Utf8.encode_of_decode? {b : Bytes} {s : String} (h : decode? b = some s) :
    encode s = b := by
  rw [decode?, String.fromUTF8?] at h
  split at h
  · cases h
    rfl
  · cases h

/-! ### Pieces between separators -/

section

variable {α : Type} {p : α → Bool}

theorem splitOn_cons_of_pos {c : α} (h : p c = true) (rest : List α) :
    Text.splitOn p (c :: rest) = [] :: Text.splitOn p rest := by
  rw [Text.splitOn, if_pos h]

/-- There is always a piece, and elements that are no separators go in front of it. -/
theorem splitOn_append {a : List α} (ha : ∀ x ∈ a, p x = false) (rest : List α) :
    ∃ piece pieces, Text.splitOn p rest = piece :: pieces ∧
      Text.splitOn p (a ++ rest) = (a ++ piece) :: pieces := by
  have hpiece : ∃ piece pieces, Text.splitOn p rest = piece :: pieces := by
    cases rest with
    | nil => exact ⟨[], [], rfl⟩
    | cons c rest =>
      rw [Text.splitOn]
      split
      · exact ⟨_, _, rfl⟩
      · split <;> exact ⟨_, _, rfl⟩
  obtain ⟨piece, pieces, hrest⟩ := hpiece
  refine ⟨piece, pieces, hrest, ?_⟩
  induction a with
  | nil => exact hrest
  | cons x a ih =>
    have hx : ¬ p x = true := by simp [ha x List.mem_cons_self]
    rw [List.cons_append, Text.splitOn, if_neg hx, ih fun y hy => ha y (List.mem_cons_of_mem _ hy)]
    rfl

/-- The first piece ends at the first separator. -/
theorem splitOn_append_cons {a : List α} (ha : ∀ x ∈ a, p x = false) {c : α} (hc : p c = true)
    (rest : List α) : Text.splitOn p (a ++ c :: rest) = a :: Text.splitOn p rest := by
  obtain ⟨piece, pieces, hrest, hsplit⟩ := splitOn_append ha (c :: rest)
  rw [splitOn_cons_of_pos hc] at hrest
  cases hrest
  rw [hsplit, List.append_nil]

/-- Pieces are cut out as the library does it. -/
theorem splitOn_eq_splitOnP {l : List α} :
    Text.splitOn p l = l.splitOnP p := by
  induction l with
  | nil => rfl
  | cons x l ih =>
    rw [Text.splitOn, List.splitOnP_cons_eq_if_modifyHead, ← ih]
    split
    · rfl
    · obtain ⟨piece, pieces, hl, -⟩ := splitOn_append (a := []) (p := p) (by simp) l
      rw [hl]
      rfl

/-- No piece holds a separator. -/
theorem not_of_mem_splitOn {l piece : List α} (h : piece ∈ Text.splitOn p l) :
    ∀ x ∈ piece, p x = false := by
  induction l generalizing piece with
  | nil =>
    rw [List.mem_singleton.mp h]
    simp
  | cons c l ih =>
    by_cases hc : p c = true
    · rw [splitOn_cons_of_pos hc] at h
      rcases List.mem_cons.mp h with rfl | h
      · simp
      · exact ih h
    · obtain ⟨first, pieces, hl, hsplit⟩ := splitOn_append (a := [c]) (by simpa using hc) l
      rw [List.singleton_append] at hsplit
      rw [hsplit] at h
      rcases List.mem_cons.mp h with rfl | h
      · rw [List.singleton_append, List.forall_mem_cons]
        exact ⟨Bool.eq_false_iff.mpr hc, ih (by rw [hl]; exact List.mem_cons_self)⟩
      · exact ih (by rw [hl]; exact List.mem_cons_of_mem _ h)

/-- Pieces that are joined have a separator behind each but the last. -/
theorem intercalate_concat (c : α) (pieces : List (List α)) (last : List α) :
    [c].intercalate (pieces ++ [last]) = pieces.flatMap (· ++ [c]) ++ last := by
  induction pieces with
  | nil => simp
  | cons piece pieces ih =>
    rw [List.cons_append, List.intercalate_cons_of_ne_nil (by simp), ih, List.flatMap_cons]
    simp only [List.append_assoc]

/-- Pieces with separators between them and at the end are pieces with a separator behind each. -/
theorem intercalate_append_singleton (c : α) {pieces : List (List α)} (h : pieces ≠ []) :
    [c].intercalate pieces ++ [c] = pieces.flatMap (· ++ [c]) := by
  obtain ⟨front, last, rfl⟩ := (List.eq_nil_or_concat pieces).resolve_left h
  rw [List.concat_eq_append, intercalate_concat, List.flatMap_append, List.append_assoc,
    List.flatMap_singleton]

end

/-- These are the pieces of some bytes just if they hold no separator and make up the bytes, with a
separator behind each but the last. -/
theorem splitOn_eq_iff {c : UInt8} {buf : Bytes} {pieces : List Bytes} {last : Bytes} :
    Text.splitOn (· == c) buf = pieces ++ [last] ↔
      (∀ piece ∈ pieces ++ [last], c ∉ piece) ∧ buf = pieces.flatMap (· ++ [c]) ++ last := by
  have hlibrary : Text.splitOn (· == c) buf = List.splitOn c buf := splitOn_eq_splitOnP
  rw [hlibrary]
  constructor
  · intro h
    refine ⟨fun piece hpiece hc => ?_, ?_⟩
    · rw [← h, ← hlibrary] at hpiece
      simpa using not_of_mem_splitOn hpiece c hc
    · rw [← intercalate_concat, ← h, List.intercalate_splitOn]
  · rintro ⟨hfree, rfl⟩
    rw [← intercalate_concat, List.splitOn_intercalate c hfree (by simp)]

/-! ### Lines -/

/-- A line ends where the first line feed behind it is. -/
theorem fields_line {line : String} (h : '\n' ∉ line.toList) (rest : String) :
    Text.fields '\n' (line ++ "\n" ++ rest) = line :: Text.fields '\n' rest := by
  have hsplit : (line ++ "\n" ++ rest).toList = line.toList ++ '\n' :: rest.toList := by
    rw [String.toList_append, String.toList_append, List.append_assoc]
    rfl
  have hnot : ∀ c ∈ line.toList, (c == '\n') = false := by
    intro c hc
    exact beq_false_of_ne fun hlf => h (hlf ▸ hc)
  rw [Text.fields, hsplit, splitOn_append_cons hnot (beq_self_eq_true _), List.map_cons,
    String.ofList_toList, Text.fields]

/-- The lines of a text are read back from it. -/
theorem fields_join {lines : List String} (h : ∀ line ∈ lines, '\n' ∉ line.toList) (rest : String) :
    Text.fields '\n' (String.join (lines.map (· ++ "\n")) ++ rest) =
      lines ++ Text.fields '\n' rest := by
  induction lines with
  | nil => simp
  | cons line lines ih =>
    rw [List.forall_mem_cons] at h
    rw [List.map_cons, String.join_cons, String.append_assoc, fields_line h.1, ih h.2,
      List.cons_append]

/-! ### Quoted messages -/

/-- A character that is written as it is: plain ASCII that is no control character. -/
def Text.IsPlain (c : Char) : Prop := 0x20 ≤ c.toNat ∧ c.toNat ≤ 0x7E

instance (c : Char) : Decidable (Text.IsPlain c) := inferInstanceAs (Decidable (_ ∧ _))

/-- A byte inside quotes is written with plain characters. -/
theorem isPlain_of_mem_quoteByte {b : UInt8} {c : Char} (h : c ∈ Text.quoteByte b) :
    Text.IsPlain c := by
  have hall : ((List.range 256).all fun n =>
      (Text.quoteByte (UInt8.ofNat n)).all fun c => decide (Text.IsPlain c)) = true := by
    decide +kernel
  have hbyte := List.all_eq_true.mp hall b.toNat (List.mem_range.mpr b.toNat_lt)
  rw [UInt8.ofNat_toNat] at hbyte
  exact of_decide_eq_true (List.all_eq_true.mp hbyte c h)

/-- A quoted message is plain, whatever the message is. -/
theorem isPlain_of_mem_quoteMessage {m : String} {c : Char}
    (h : c ∈ (Text.quoteMessage m).toList) : Text.IsPlain c := by
  rw [Text.quoteMessage] at h
  split at h
  · rw [String.toList_ofList] at h
    rcases List.mem_cons.mp h with rfl | h
    · decide
    rcases List.mem_append.mp h with h | h
    · obtain ⟨b, -, hc⟩ := List.mem_flatMap.mp h
      exact isPlain_of_mem_quoteByte hc
    · rw [List.mem_singleton.mp h]
      decide
  · next hany =>
    have hkept : Text.needsQuoting c = false :=
      Bool.eq_false_iff.mpr fun hc => hany (List.any_eq_true.mpr ⟨c, h, hc⟩)
    simp only [Text.needsQuoting, Bool.or_eq_false_iff, decide_eq_false_iff_not] at hkept
    obtain ⟨⟨-, hlow⟩, hhigh⟩ := hkept
    exact ⟨by omega, by omega⟩

/-- A quoted message is one line. -/
theorem lineFeed_not_mem_quoteMessage (m : String) : '\n' ∉ (Text.quoteMessage m).toList :=
  fun h => absurd (isPlain_of_mem_quoteMessage h) (by decide)

end GitRemote
