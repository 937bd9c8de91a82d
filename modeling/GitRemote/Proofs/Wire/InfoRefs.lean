import GitRemote.Pathspec.Match
import GitRemote.Proofs.Object.Id
import GitRemote.Proofs.Text.Lines
import GitRemote.Proofs.Text.Utf8
import GitRemote.Proofs.Wire.Codec
import GitRemote.Wire.Advertisement

/-!
# Lists of plain files

A list of plain files is read just if it is made of lines that are the forty digits of an id in either
case, a tab, a name of at least one character, and a line feed. Its refs are then those ids and names, in
the order of the lines. Nothing is read out of any other bytes.
-/

namespace GitRemote

/-! ### The digits of an id -/

/-- Every digit is one of a number below sixteen. -/
theorem IsHexDigit.lt {b : UInt8} {v : Nat} (h : IsHexDigit b v) : v < 16 := by
  rcases h with h | h
  · exact (List.getElem?_eq_some_iff.mp h).1
  · exact (List.getElem?_eq_some_iff.mp h).1

/-- In lower case, a digit is the one that is written. -/
theorem IsHexDigit.lowerByte {b : UInt8} {v : Nat} (h : IsHexDigit b v) :
    lowerByte b = Text.hexDigit (UInt8.ofNat v) := by
  have hall : ∀ w ∈ [bytesOf "0123456789abcdef", bytesOf "0123456789ABCDEF"], ∀ i : Fin 16,
      ∀ b ∈ w[i.val]?, GitRemote.lowerByte b = Text.hexDigit (UInt8.ofNat i.val) := by
    decide +kernel
  rcases id h with hb | hb
  · exact hall _ List.mem_cons_self ⟨v, h.lt⟩ b hb
  · exact hall _ (List.mem_cons_of_mem _ List.mem_cons_self) ⟨v, h.lt⟩ b hb

/-- A hexadecimal digit in either case has its value. -/
theorem hexValue?_eq_some_iff {b v : UInt8} :
    Text.hexValue? b = some v ↔ IsHexDigit b v.toNat := by
  rw [← hexValue?_eq_some, Option.map_eq_some_iff]
  constructor
  · intro h
    exact ⟨v, h, rfl⟩
  · rintro ⟨w, hw, heq⟩
    rwa [← UInt8.toNat.inj heq]

namespace ObjectId

/-- The values of the two digits of each byte. -/
def nibbles (octets : Bytes) : List Nat := octets.flatMap fun b => [b.toNat / 16, b.toNat % 16]

/-- Hexadecimal digits in either case write an id. -/
def Spelled (id : ObjectId) (digits : Bytes) : Prop := List.Forall₂ IsHexDigit digits (nibbles id.octets)

/-- Each octet is two digits. -/
theorem length_nibbles (octets : Bytes) : (nibbles octets).length = 2 * octets.length := by
  induction octets with
  | nil => rfl
  | cons b octets ih =>
    rw [nibbles, List.flatMap_cons, List.length_append, ← nibbles, ih, List.length_cons]
    simp only [List.length_cons, List.length_nil]
    omega

variable {id : ObjectId} {digits : Bytes}

theorem toNat_high (b : UInt8) : (b / 16).toNat = b.toNat / 16 := UInt8.toNat_div b 16

theorem toNat_low (b : UInt8) : (b % 16).toNat = b.toNat % 16 := UInt8.toNat_mod b 16

/-- A byte is read from two digits just if they stand for its halves. -/
theorem pair_eq_iff {high low b : UInt8} (hhigh : high.toNat < 16) (hlow : low.toNat < 16) :
    high * 16 + low = b ↔ high.toNat = b.toNat / 16 ∧ low.toNat = b.toNat % 16 := by
  have hb := b.toNat_lt
  rw [← UInt8.toNat_inj, UInt8.toNat_add, UInt8.toNat_mul]
  show (high.toNat * 16 % 256 + low.toNat) % 256 = b.toNat ↔ _
  omega

/-- Two digits more are read as one byte more. -/
theorem ofHexPairs_cons_cons {position : Nat} {x y b : UInt8} {rest octets : Bytes} :
    ofHexPairs position (x :: y :: rest) = .ok (b :: octets) ↔
      (IsHexDigit x (b.toNat / 16) ∧ IsHexDigit y (b.toNat % 16)) ∧
        ofHexPairs (position + 2) rest = .ok octets := by
  have hread : ofHexPairs position (x :: y :: rest) = .ok (b :: octets) ↔
      (∃ high low, Text.hexValue? x = some high ∧ Text.hexValue? y = some low ∧
        high * 16 + low = b) ∧ ofHexPairs (position + 2) rest = .ok octets := by
    rw [ofHexPairs]
    cases Text.hexValue? x with
    | none => simp
    | some high =>
      cases Text.hexValue? y with
      | none => simp
      | some low => cases ofHexPairs (position + 2) rest <;> simp [Except.map]
  rw [hread, and_congr_left_iff]
  intro _
  simp only [hexValue?_eq_some_iff]
  constructor
  · rintro ⟨high, low, hx, hy, heq⟩
    obtain ⟨hhigh, hlow⟩ := (pair_eq_iff hx.lt hy.lt).mp heq
    exact ⟨hhigh ▸ hx, hlow ▸ hy⟩
  · rintro ⟨hx, hy⟩
    rw [← toNat_high] at hx
    rw [← toNat_low] at hy
    exact ⟨b / 16, b % 16, hx, hy, (pair_eq_iff hx.lt hy.lt).mpr ⟨toNat_high b, toNat_low b⟩⟩

/-- Digits in pairs are read just as the bytes that they write. -/
theorem ofHexPairs_eq_ok {octets : Bytes} {position : Nat} (hlen : digits.length = 2 * octets.length) :
    ofHexPairs position digits = .ok octets ↔ List.Forall₂ IsHexDigit digits (nibbles octets) := by
  induction octets generalizing digits position with
  | nil =>
    rw [List.length_eq_zero_iff.mp hlen]
    exact ⟨fun _ => .nil, fun _ => rfl⟩
  | cons b octets ih =>
    match digits, hlen with
    | x :: y :: rest, hlen =>
      have hrest : rest.length = 2 * octets.length := by
        simp only [List.length_cons] at hlen
        omega
      have hsplit : nibbles (b :: octets) = b.toNat / 16 :: b.toNat % 16 :: nibbles octets := rfl
      rw [hsplit, List.forall₂_cons, List.forall₂_cons, ofHexPairs_cons_cons, ih hrest, and_assoc]

/-- An id is read from digits just if they write it. -/
theorem ofHex?_eq_some : ofHex? digits = some id ↔ id.Spelled digits := by
  have hlen : (nibbles id.octets).length = 40 := by rw [length_nibbles, id.size_eq]
  constructor
  · intro h
    rw [ofHex?, ofHex] at h
    split at h
    · next hdigits =>
      split at h
      · cases h
      · next out hread =>
        cases h
        exact (ofHexPairs_eq_ok (by rw [hdigits, ← hlen, length_nibbles])).mp hread
    · cases h
  · intro h
    have hdigits : digits.length = 40 := by rw [h.length_eq, hlen]
    have hread : ofHexPairs 0 digits = .ok id.octets :=
      (ofHexPairs_eq_ok (by rw [hdigits, ← hlen, length_nibbles])).mpr h
    rw [ofHex?, ofHex, dif_pos hdigits]
    split
    · next e he =>
      rw [hread] at he
      cases he
    · next out hout =>
      rw [hread] at hout
      cases hout
      rfl

namespace Spelled

theorem length (h : id.Spelled digits) : digits.length = 40 := by
  rw [h.length_eq, length_nibbles, id.size_eq]

/-- In lower case, the digits are those that the id is written with. -/
theorem map_lowerByte (h : id.Spelled digits) : digits.map lowerByte = id.hexBytes := by
  have hpair (b : UInt8) : [b.toNat / 16, b.toNat % 16].map
      (fun v => Text.hexDigit (UInt8.ofNat v)) = hexPair b := by
    rw [List.map_cons, List.map_cons, List.map_nil, ← toNat_high, ← toNat_low, UInt8.ofNat_toNat,
      UInt8.ofNat_toNat, hexPair]
  have hwritten : (nibbles id.octets).map (fun v => Text.hexDigit (UInt8.ofNat v)) = id.hexBytes := by
    rw [nibbles, List.map_flatMap, hexBytes]
    exact List.flatMap_congr fun b _ => hpair b
  rw [← hwritten, ← List.forall₂_eq_eq_eq, List.forall₂_map_left_iff, List.forall₂_map_right_iff]
  exact h.imp fun _ _ hdigit => hdigit.lowerByte

/-- However an id is spelled, its digits do not end a line. -/
theorem lineFeed_not_mem (h : id.Spelled digits) : 0x0A ∉ digits := by
  intro hmem
  have hlower : lowerByte 0x0A ∈ id.hexBytes := h.map_lowerByte ▸ List.mem_map_of_mem hmem
  have hdigit := isSome_hexValue?_of_mem_hexBytes hlower
  revert hdigit
  decide

end Spelled

end ObjectId

/-! ### Lines -/

/-- A line of a list of plain files, and the ref that it is on. -/
inductive InfoLine : Bytes → Ref → Prop
  | mk {digits : Bytes} {id : ObjectId} {name : String} (hdigits : id.Spelled digits)
      (hne : name ≠ "") (htab : '\t' ∉ name.toList) (hnul : '\x00' ∉ name.toList)
      (hlf : '\n' ∉ name.toList) :
      InfoLine (digits ++ 0x09 :: (Utf8.encode name ++ [0x0A])) { name, oldId := id }

/-- A line with the digits of its id in lower case. -/
def lowerDigits (line : Bytes) : Bytes := (line.take 40).map lowerByte ++ line.drop 40

/-- A ref as it is written in a list of plain files. -/
def Ref.infoLine (r : Ref) : Bytes := r.oldId.hexBytes ++ 0x09 :: (Utf8.encode r.name ++ [0x0A])

/-- A line of an id and a name is read just if it holds the digits, the separator and the name. -/
theorem idAndName?_eq_some {separator : UInt8} {line : Bytes} {id : ObjectId} {name : String} :
    idAndName? separator line = some (id, name) ↔
      ∃ digits, id.Spelled digits ∧ name ≠ "" ∧ line = digits ++ separator :: Utf8.encode name := by
  rw [idAndName?]
  constructor
  · intro h
    split at h
    · next b rest hdrop =>
      split at h
      · next hb =>
        obtain ⟨rfl, hrest⟩ : b = separator ∧ rest ≠ [] := by simpa using hb
        split at h
        · next id' name' hid hname =>
          cases h
          refine ⟨line.take 40, ObjectId.ofHex?_eq_some.mp hid, ?_, ?_⟩
          · rintro rfl
            exact hrest (Utf8.encode_of_decode? hname).symm
          · rw [Utf8.encode_of_decode? hname, ← hdrop, List.take_append_drop]
        · cases h
      · cases h
    · cases h
  · rintro ⟨digits, hdigits, hne, rfl⟩
    have hname : (Utf8.encode name).isEmpty = false :=
      List.isEmpty_eq_false_iff.mpr (Utf8.encode_ne_nil hne)
    rw [List.drop_left' hdigits.length, List.take_left' hdigits.length]
    simp only [hname, ObjectId.ofHex?_eq_some.mpr hdigits, Utf8.decode?_encode, Bool.not_false,
      Bool.and_true, decide_true, ite_true]

/-- A line is one on a ref just if the ref is read from what is in front of its line feed. -/
theorem infoLine_iff {line : Bytes} {r : Ref} :
    InfoLine line r ↔ ∃ piece, line = piece ++ [0x0A] ∧ 0x0A ∉ piece ∧ infoRef? piece = some r := by
  constructor
  · rintro ⟨hdigits, hne, htab, hnul, hlf⟩
    rename_i digits id name
    refine ⟨digits ++ 0x09 :: Utf8.encode name, ?_, ?_, ?_⟩
    · rw [List.append_assoc, List.cons_append]
    · have hbyte : 0x0A ∉ Utf8.encode name := fun hmem => hlf ((Utf8.mem_encode (by decide)).mp hmem)
      simp [hdigits.lineFeed_not_mem, hbyte]
    · rw [infoRef?, idAndName?_eq_some.mpr ⟨digits, hdigits, hne, rfl⟩]
      simp [htab, hnul]
  · rintro ⟨piece, rfl, hlf, h⟩
    rw [infoRef?] at h
    split at h
    · cases h
    · next id name hread =>
      split at h
      · cases h
      · next hfree =>
        cases h
        simp only [Bool.or_eq_true, List.contains_iff_mem, not_or] at hfree
        obtain ⟨digits, hdigits, hne, rfl⟩ := idAndName?_eq_some.mp hread
        have hname : '\n' ∉ name.toList := by
          intro hmem
          have hbyte : 0x0A ∈ Utf8.encode name := (Utf8.mem_encode (by decide)).mpr hmem
          exact hlf (List.mem_append_right _ (List.mem_cons_of_mem _ hbyte))
        have hline := InfoLine.mk hdigits hne hfree.1 hfree.2 hname
        rwa [← List.cons_append, ← List.append_assoc] at hline

/-- A list of lines is read just if each line is. -/
theorem mapM_eq_some_iff {α β : Type} {f : α → Option β} {as : List α} {bs : List β} :
    as.mapM f = some bs ↔ List.Forall₂ (fun a b => f a = some b) as bs := by
  induction as generalizing bs with
  | nil => simp
  | cons a as ih =>
    rw [List.mapM_cons, List.forall₂_cons_left_iff]
    simp only [← ih]
    cases f a with
    | none => simp
    | some b => cases as.mapM f <;> simp [eq_comm]

/-- Lines are those on some refs just if the refs are read from what is in front of the line feeds. -/
theorem forall₂_infoLine_iff {lines : List Bytes} {refs : List Ref} :
    List.Forall₂ InfoLine lines refs ↔ ∃ pieces : List Bytes, lines = pieces.map (· ++ [0x0A]) ∧
      (∀ piece ∈ pieces, 0x0A ∉ piece) ∧ pieces.mapM infoRef? = some refs := by
  simp only [mapM_eq_some_iff]
  constructor
  · intro h
    induction h with
    | nil => exact ⟨[], rfl, by simp, .nil⟩
    | cons hline _ ih =>
      obtain ⟨piece, rfl, hlf, hread⟩ := infoLine_iff.mp hline
      obtain ⟨pieces, rfl, hlfs, hreads⟩ := ih
      exact ⟨piece :: pieces, rfl, List.forall_mem_cons.mpr ⟨hlf, hlfs⟩, .cons hread hreads⟩
  · rintro ⟨pieces, rfl, hlfs, hreads⟩
    rw [List.forall₂_map_left_iff]
    have hboth := (List.forall₂_and_left pieces refs).mpr ⟨hlfs, hreads⟩
    exact hboth.imp fun piece _ h => infoLine_iff.mpr ⟨piece, rfl, h⟩

/-- In lower case, a line is the one that its ref is written on. -/
theorem InfoLine.lowerDigits {line : Bytes} {r : Ref} (h : InfoLine line r) :
    lowerDigits line = r.infoLine := by
  cases h with
  | mk hdigits =>
    rw [GitRemote.lowerDigits, List.take_left' hdigits.length, List.drop_left' hdigits.length,
      hdigits.map_lowerByte, Ref.infoLine]

/-- Refs are read just if the bytes are made of lines on them. -/
theorem parseInfoRefs_eq_ok {buf : Bytes} {refs : List Ref} :
    parseInfoRefs buf = .ok refs ↔
      ∃ lines, buf = lines.flatten ∧ List.Forall₂ InfoLine lines refs := by
  have hread : parseInfoRefs buf = .ok refs ↔ ∃ pieces : List Bytes,
      Text.splitOn (· == (0x0A : UInt8)) buf = pieces ++ [[]] ∧ pieces.mapM infoRef? = some refs := by
    rw [parseInfoRefs]
    constructor
    · intro h
      split at h
      · next hrefs =>
        cases h
        split at hrefs
        · next hlast => exact ⟨_, (List.dropLast_append_getLast? [] hlast).symm, hrefs⟩
        · cases hrefs
      · cases h
    · rintro ⟨pieces, hsplit, hrefs⟩
      rw [hsplit, List.getLast?_concat, List.dropLast_concat]
      simp only [ite_true, hrefs]
  rw [hread]
  simp only [splitOn_eq_iff, forall₂_infoLine_iff, List.append_nil]
  constructor
  · rintro ⟨pieces, ⟨hlfs, rfl⟩, hrefs⟩
    exact ⟨_, rfl, pieces, rfl, fun piece h => hlfs piece (List.mem_append_left _ h), hrefs⟩
  · rintro ⟨-, rfl, pieces, rfl, hlfs, hrefs⟩
    refine ⟨pieces, ⟨fun piece h => ?_, rfl⟩, hrefs⟩
    rcases List.mem_append.mp h with h | h
    · exact hlfs piece h
    · rw [List.mem_singleton.mp h]
      exact List.not_mem_nil

/-- Bytes that are not such lines are refused for one reason. -/
theorem error_parseInfoRefs {buf : Bytes} {e : WireError} (h : parseInfoRefs buf = .error e) :
    e = .advertisement .notInfoRefs := by
  rw [parseInfoRefs] at h
  split at h
  · cases h
  · cases h
    rfl

/-- Bytes are read as a list of plain files just if they are made of lines, each of the forty digits of an
id in either case, a tab, a name and a line feed, and then as the refs of these ids and names in their
order. Written out again, the refs give the same lines with the digits in lower case. All other bytes are
refused. -/
theorem info_refs_read_iff_lines (buf : Bytes) :
    (∀ refs, parseInfoRefs buf = .ok refs ↔
      ∃ lines, buf = lines.flatten ∧ List.Forall₂ InfoLine lines refs) ∧
    (∀ refs, parseInfoRefs buf = .ok refs →
      ∃ lines : List Bytes, buf = lines.flatten ∧ refs.map Ref.infoLine = lines.map lowerDigits) ∧
    ((¬ ∃ lines refs, buf = lines.flatten ∧ List.Forall₂ InfoLine lines refs) →
      parseInfoRefs buf = .error (.advertisement .notInfoRefs)) := by
  refine ⟨fun refs => parseInfoRefs_eq_ok, fun refs h => ?_, fun hno => ?_⟩
  · obtain ⟨lines, hbuf, hlines⟩ := parseInfoRefs_eq_ok.mp h
    refine ⟨lines, hbuf, ?_⟩
    rw [← List.forall₂_eq_eq_eq, List.forall₂_map_left_iff, List.forall₂_map_right_iff]
    exact hlines.flip.imp fun r line hline => hline.lowerDigits.symm
  · cases hread : parseInfoRefs buf with
    | ok refs =>
      obtain ⟨lines, hlines⟩ := parseInfoRefs_eq_ok.mp hread
      exact absurd ⟨lines, refs, hlines⟩ hno
    | error e => rw [error_parseInfoRefs hread]

/-- Digits may be in upper case, and a line that is broken off spoils the lines in front of it. -/
example :
    let line := List.replicate 20 0x41 ++ List.replicate 20 0x61 ++ bytesOf "\tmain\n"
    parseInfoRefs line = .ok [{ name := "main", oldId := uniformId 0xAA }] ∧
      parseInfoRefs (line ++ line.dropLast) = .error (.advertisement .notInfoRefs) := by
  decide +kernel

end GitRemote
