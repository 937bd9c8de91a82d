import GitRemote.Object.Loose
import GitRemote.Proofs.Text.Cut
import GitRemote.Proofs.Text.Digits
import GitRemote.Proofs.Text.Lines
import GitRemote.Proofs.Text.Utf8
import GitRemote.Proofs.Zlib.Stored

/-!
# The loose form of an object

An object reads back from its loose form. What is read as an object inflates to its kind, its length
and its body, but the length may have zeros in front of it and a plus sign in front of those. Such data
is not what the object is written as, and its digest is not the id under which it is kept.
-/

namespace GitRemote

/-! ### Lengths -/

/-- How a length is spelled: with a plus sign in front or without, and with a number of zeros in front
of its digits. The canonical spelling has neither. -/
structure LengthSpelling where
  plus : Bool := false
  zeros : Nat := 0
  deriving DecidableEq, Repr

namespace LengthSpelling

variable {s : LengthSpelling} {n : Nat}

/-- A length as it is spelled. -/
def bytes (s : LengthSpelling) (n : Nat) : Bytes :=
  (if s.plus then [0x2B] else []) ++ (List.replicate s.zeros 0x30 ++ Text.digitBytes 10 n)

/-- Zeros in front do not change a number. -/
theorem digits?_behind_sign (s : LengthSpelling) (n : Nat) :
    Text.digits? 10 (List.replicate s.zeros 0x30 ++ Text.digitBytes 10 n) = some n :=
  (digits?_eq_some_iff_zeros (by decide) (by decide)).mpr ⟨s.zeros, rfl⟩

/-- The digits of a length have no byte that is no digit, such as a sign or a NUL. -/
theorem not_mem_behind_sign {b : UInt8} (hb : Text.digitValue? 10 b = none) :
    b ∉ List.replicate s.zeros 0x30 ++ Text.digitBytes 10 n :=
  not_mem_of_digitsOnto? (digits?_eq_some.mp (s.digits?_behind_sign n)).2 hb

/-- No spelling of a length ends a header early. -/
theorem nul_not_mem_bytes : (0 : UInt8) ∉ s.bytes n := by
  rw [bytes, List.mem_append, not_or]
  refine ⟨?_, not_mem_behind_sign rfl⟩
  split <;> decide

/-- A length without zeros and sign is spelled by its digits. -/
theorem bytes_canonical (n : Nat) : bytes {} n = Text.digitBytes 10 n := rfl

/-- No other spelling has the same bytes. -/
theorem bytes_eq_digitBytes : s.bytes n = Text.digitBytes 10 n ↔ s = {} := by
  constructor
  · intro h
    obtain ⟨plus, zeros⟩ := s
    have hlen := congrArg List.length h
    simp only [bytes, List.length_append, List.length_replicate] at hlen
    obtain rfl : zeros = 0 := by omega
    cases plus with
    | false => rfl
    | true =>
      rw [if_pos rfl, List.length_singleton] at hlen
      omega
  · rintro rfl
    rfl

/-- A spelled length is a text. -/
theorem exists_text (s : LengthSpelling) (n : Nat) : ∃ text, Utf8.encode text = s.bytes n := by
  have hascii : ∀ c ∈ (if s.plus then ['+'] else []) ++ (List.replicate s.zeros '0' ++
      Nat.toDigits 10 n), c.toNat < 0x80 := by
    intro c hc
    rcases List.mem_append.mp hc with hc | hc
    · split at hc
      · rw [List.mem_singleton.mp hc]
        decide
      · cases hc
    rcases List.mem_append.mp hc with hc | hc
    · rw [List.eq_of_mem_replicate hc]
      decide
    · have hdigit := Nat.isDigit_of_mem_toDigits (by decide) (by decide) hc
      simp only [Char.isDigit, Bool.and_eq_true, decide_eq_true_eq] at hdigit
      exact Nat.lt_of_le_of_lt (UInt32.le_iff_toNat_le.mp hdigit.2) (by decide)
  refine ⟨String.ofList _, (Utf8.encode_ascii hascii).trans ?_⟩
  rw [List.map_append, List.map_append, List.map_replicate, bytes, Text.digitBytes]
  cases s.plus <;> rfl

end LengthSpelling

/-- A length is read in any of its spellings, and nothing else is read as it. -/
theorem natural?_eq_some {bound n : Nat} {text : String} :
    Text.natural? bound text = some n ↔
      n < bound ∧ ∃ s : LengthSpelling, Utf8.encode text = s.bytes n := by
  have hbound : Text.natural? bound text = some n ↔ n < bound ∧ Text.digits? 10
      (if (Utf8.encode text).head? == some 0x2B then (Utf8.encode text).drop 1
        else Utf8.encode text) = some n := by
    rw [Text.natural?]
    split
    · next m hread =>
      rw [hread, Option.ite_none_right_eq_some, Option.some.injEq]
      constructor <;> rintro ⟨h, rfl⟩ <;> exact ⟨h, rfl⟩
    · next hread =>
      rw [hread]
      simp
  refine hbound.trans (and_congr_right fun _ => ?_)
  constructor
  · intro h
    obtain ⟨zeros, hdigits⟩ := (digits?_eq_some_iff_zeros (by decide) (by decide)).mp h
    split at hdigits
    · next hplus =>
      obtain ⟨rest, hrest⟩ := List.head?_eq_some_iff.mp (eq_of_beq hplus)
      refine ⟨⟨true, zeros⟩, ?_⟩
      rw [hrest, List.drop_one, List.tail_cons] at hdigits
      rw [hrest, hdigits]
      rfl
    · exact ⟨⟨false, zeros⟩, hdigits⟩
  · rintro ⟨s, hs⟩
    rw [hs]
    obtain ⟨plus, zeros⟩ := s
    cases plus with
    | true => exact LengthSpelling.digits?_behind_sign ⟨true, zeros⟩ n
    | false =>
      have hhead : ((LengthSpelling.bytes ⟨false, zeros⟩ n).head? == some 0x2B) = false := by
        rw [beq_eq_false_iff_ne]
        intro hplus
        exact LengthSpelling.not_mem_behind_sign (s := ⟨false, zeros⟩) rfl
          (List.mem_of_mem_head? hplus)
      rw [hhead, if_neg Bool.false_ne_true]
      exact LengthSpelling.digits?_behind_sign ⟨false, zeros⟩ n

/-! ### Headers and bodies -/

/-- A kind is read from its name and from no other. -/
theorem ObjectKind.ofName_eq_ok {name : String} {kind : ObjectKind} :
    ObjectKind.ofName name = .ok kind ↔ name = kind.name := by
  constructor
  · intro h
    rw [ofName] at h
    split_ifs at h <;> cases h <;> assumption
  · rintro rfl
    cases kind <;> rfl

namespace Object

/-- Header and body of an object, with its length spelled in a given way. -/
def spelled (o : Object) (s : LengthSpelling) : Bytes :=
  Utf8.encode o.kind.name ++ 0x20 :: (s.bytes o.data.length ++ 0 :: o.data)

theorem spelled_canonical (o : Object) : o.spelled {} = o.framed := by
  simp [spelled, LengthSpelling.bytes_canonical, framed, header]

/-- An object is written with its length in canonical form, and in no other. -/
theorem spelled_eq_framed {o : Object} {s : LengthSpelling} : o.spelled s = o.framed ↔ s = {} := by
  rw [← spelled_canonical, spelled, spelled, List.append_cancel_left_eq, List.cons.injEq,
    List.append_cancel_right_eq, LengthSpelling.bytes_canonical,
    LengthSpelling.bytes_eq_digitBytes, and_iff_right rfl]

/-- What is read as an object is its header, with some spelling of its length, and its body. -/
theorem exists_spelled_of_ofFramed {raw : Bytes} {o : Object} (h : ofFramed raw = .ok o) :
    o.data.length < Text.wordBound ∧ ∃ s, raw = o.spelled s := by
  rw [ofFramed] at h
  split at h
  · cases h
  next head body hcut =>
  split at h
  · cases h
  next text htext =>
  split at h
  · cases h
  next name length hparts =>
  split at h
  · cases h
  next kind hkind =>
  split at h
  · cases h
  next n hlength =>
  split at h
  · next hsize =>
    cases h
    obtain ⟨b, hb, -, rfl⟩ := cut?_eq_some.mp hcut
    obtain rfl : b = 0 := eq_of_beq hb
    obtain ⟨-, hchars⟩ := cutAt?_eq_some.mp hparts
    obtain ⟨hlt, s, hs⟩ := natural?_eq_some.mp hlength
    have hjoin : text = name ++ " " ++ length := by
      apply String.ext
      rw [hchars, String.toList_append, String.toList_append, List.append_assoc]
      rfl
    have hblank : Utf8.encode " " = [0x20] := rfl
    refine ⟨hsize ▸ hlt, s, ?_⟩
    rw [← Utf8.encode_of_decode? htext, hjoin, Utf8.encode_append, Utf8.encode_append, hblank, hs,
      ObjectKind.ofName_eq_ok.mp hkind, spelled, ← hsize]
    simp
  · cases h

/-- An object is read whatever the spelling of its length is. -/
theorem ofFramed_spelled {o : Object} (hlt : o.data.length < Text.wordBound) (s : LengthSpelling) :
    ofFramed (o.spelled s) = .ok o := by
  obtain ⟨length, hlength⟩ := s.exists_text o.data.length
  have hkindFree : (0 : UInt8) ∉ Utf8.encode o.kind.name ∧ ' ' ∉ o.kind.name.toList := by
    cases o.kind <;> decide
  have htext : Utf8.encode (o.kind.name ++ " " ++ length) =
      Utf8.encode o.kind.name ++ 0x20 :: s.bytes o.data.length := by
    rw [Utf8.encode_append, Utf8.encode_append, hlength, List.append_assoc]
    rfl
  have hcut : Text.cut? (· == (0 : UInt8)) (o.spelled s) =
      some (Utf8.encode (o.kind.name ++ " " ++ length), o.data) := by
    refine cut?_eq_some.mpr ⟨0, rfl, fun b hb => beq_false_of_ne ?_, ?_⟩
    · rintro rfl
      rw [htext] at hb
      rcases List.mem_append.mp hb with hb | hb
      · exact hkindFree.1 hb
      · exact LengthSpelling.nul_not_mem_bytes ((List.mem_cons.mp hb).resolve_left (by decide))
    · rw [htext, spelled, List.append_assoc, List.cons_append]
  have hparts : Text.cutAt? ' ' (o.kind.name ++ " " ++ length) = some (o.kind.name, length) := by
    refine cutAt?_eq_some.mpr ⟨hkindFree.2, ?_⟩
    rw [String.toList_append, String.toList_append, List.append_assoc]
    rfl
  rw [ofFramed, hcut]
  simp only [Utf8.decode?_encode, hparts, ObjectKind.ofName_eq_ok.mpr rfl,
    natural?_eq_some.mpr ⟨hlt, s, hlength⟩, ite_true]

/-- Bytes are read as an object just if they spell it, with a length that fits a word. -/
theorem ofFramed_eq_ok {raw : Bytes} {o : Object} :
    ofFramed raw = .ok o ↔ o.data.length < Text.wordBound ∧ ∃ s, raw = o.spelled s := by
  constructor
  · exact exists_spelled_of_ofFramed
  · rintro ⟨hlt, s, rfl⟩
    exact ofFramed_spelled hlt s

/-- A file is read as an object just if it inflates to a spelling of it. -/
theorem ofLoose_eq_ok {c : Bytes} {o : Object} :
    ofLoose c = .ok o ↔
      o.data.length < Text.wordBound ∧ ∃ s, Zlib.inflate? c = some (o.spelled s) := by
  rw [ofLoose]
  cases Zlib.inflate? c with
  | none => simp
  | some raw => simp [ofFramed_eq_ok]

end Object

namespace LooseDir

variable {dir dir' : LooseDir} {id : ObjectId} {c : Bytes}

/-- A directory takes in what is read as the object that it is named for. -/
theorem writeCompressed_eq_ok_iff :
    dir.writeCompressed id c = .ok dir' ↔
      ∃ o, Object.ofLoose c = .ok o ∧ o.id = id ∧ dir' = dir.addFile id c := by
  rw [writeCompressed]
  cases Object.ofLoose c with
  | error e => simp
  | ok o =>
    simp only [Except.ok.injEq, exists_eq_left']
    split_ifs with hid
    · simp [hid, eq_comm]
    · simp [hid]

/-- Every file inflates to bytes of which its name is the digest. -/
def Genuine (dir : LooseDir) : Prop :=
  ∀ p ∈ dir.files, ∃ raw, Zlib.inflate? p.2 = some raw ∧ Sha1.digest raw = p.1.octets

/-- A file that is named for the digest of its bytes can be added. -/
theorem Genuine.addFile (h : dir.Genuine) {raw : Bytes} (hraw : Zlib.inflate? c = some raw)
    (hdigest : Sha1.digest raw = id.octets) : (dir.addFile id c).Genuine := by
  rw [LooseDir.addFile]
  split
  · exact h
  · intro p hp
    rcases List.mem_append.mp hp with hp | hp
    · exact h p hp
    · rw [List.mem_singleton.mp hp]
      exact ⟨raw, hraw, hdigest⟩

/-- If lengths are canonical, a directory takes in only what it can be named for. -/
theorem Genuine.writeCompressed (h : dir.Genuine) (hwrite : dir.writeCompressed id c = .ok dir')
    (hcanonical : ∀ (o : Object) s, Zlib.inflate? c = some (o.spelled s) → s = {}) :
    dir'.Genuine := by
  obtain ⟨o, hread, rfl, rfl⟩ := writeCompressed_eq_ok_iff.mp hwrite
  obtain ⟨-, s, hraw⟩ := Object.ofLoose_eq_ok.mp hread
  refine h.addFile hraw ?_
  rw [hcanonical o s hraw, Object.spelled_canonical]
  rfl

end LooseDir

/-- An object reads back from its loose form if the compressor can be undone. What is read as an object
inflates to its header and its body with the length in any spelling; only with the canonical spelling
these are the bytes that the object is written as, which its id is the digest of. A directory takes in
what is read as the object that it is named for, and if the length is canonical, the name is the digest
of what is stored. -/
theorem loose_form_read_up_to_spelling (deflate : Bytes → Bytes)
    (hdeflate : ∀ b, Zlib.inflate? (deflate b) = some b) (o : Object) (c : Bytes)
    (dir dir' : LooseDir) (id : ObjectId) :
    (o.data.length < Text.wordBound → Object.ofLoose (o.toLoose deflate) = .ok o) ∧
    (Object.ofLoose c = .ok o ↔
      o.data.length < Text.wordBound ∧ ∃ s, Zlib.inflate? c = some (o.spelled s)) ∧
    (∀ s : LengthSpelling, (o.spelled s = o.framed ↔ s = {}) ∧
      (s = {} → Sha1.digest (o.spelled s) = o.id.octets)) ∧
    (dir.writeCompressed id c = .ok dir' ↔
      ∃ o', Object.ofLoose c = .ok o' ∧ o'.id = id ∧ dir' = dir.addFile id c) ∧
    (dir.Genuine → dir.writeCompressed id c = .ok dir' →
      (∀ (o' : Object) s, Zlib.inflate? c = some (o'.spelled s) → s = {}) → dir'.Genuine) := by
  refine ⟨fun hsize => ?_, Object.ofLoose_eq_ok, fun s => ⟨Object.spelled_eq_framed, ?_⟩,
    LooseDir.writeCompressed_eq_ok_iff, LooseDir.Genuine.writeCompressed⟩
  · refine Object.ofLoose_eq_ok.mpr ⟨hsize, {}, ?_⟩
    rw [Object.toLoose, hdeflate, Object.spelled_canonical]
  · rintro rfl
    rw [Object.spelled_canonical]
    rfl

/-- A file's content of five bytes. -/
def hello : Object := .blob (bytesOf "hello")

/-- The loose form of `hello`, compressed with the code that is agreed on beforehand. -/
def helloStream : Bytes :=
  [0x78, 0x9C, 0x4B, 0xCA, 0xC9, 0x4F, 0x52, 0x30, 0x65, 0xC8, 0x48, 0xCD, 0xC9, 0xC9, 0x07, 0x00,
    0x19, 0xAA, 0x04, 0x09]

/-- A compressor that makes that stream of `hello` and does not compress anything else. -/
def helloDeflate (b : Bytes) : Bytes := if b = hello.framed then helloStream else Zlib.stored b

/-- The streams of the example inflate to what they were made of. -/
theorem inflate?_helloDeflate (b : Bytes) : Zlib.inflate? (helloDeflate b) = some b := by
  rw [helloDeflate]
  split
  · next hb =>
    rw [hb]
    decide +kernel
  · exact Zlib.inflate?_stored b

/-- A header of `hello` with two zeros in front of its length, and the body. -/
def zerosBeforeLength : Bytes := bytesOf "blob 005" ++ 0 :: bytesOf "hello"

/-- These bytes, compressed in the same way. -/
def zerosStream : Bytes :=
  [0x78, 0x9C, 0x4B, 0xCA, 0xC9, 0x4F, 0x52, 0x30, 0x30, 0x30, 0x65, 0xC8, 0x48, 0xCD, 0xC9, 0xC9,
    0x07, 0x00, 0x20, 0x5A, 0x04, 0x69]

/-- It reads back from its loose form, and zeros in front of its length are read over. -/
theorem loose_form_read_up_to_spelling_zeros :
    (∀ b, Zlib.inflate? (helloDeflate b) = some b) ∧ hello.toLoose helloDeflate = helloStream ∧
    hello.data.length < Text.wordBound ∧ Object.ofLoose helloStream = .ok hello ∧
    Object.ofLoose zerosStream = .ok hello ∧ zerosBeforeLength ≠ hello.framed := by
  have hsize : hello.data.length < Text.wordBound := by decide
  have hstream : hello.toLoose helloDeflate = helloStream := by
    rw [Object.toLoose, helloDeflate, if_pos rfl]
  have hspelled : zerosBeforeLength = hello.spelled ⟨false, 2⟩ := by decide +kernel
  have hinflate : Zlib.inflate? zerosStream = some zerosBeforeLength := by decide +kernel
  obtain ⟨hback, hread, hwritten, -⟩ :=
    loose_form_read_up_to_spelling helloDeflate inflate?_helloDeflate hello zerosStream {} {} hello.id
  refine ⟨inflate?_helloDeflate, hstream, hsize, hstream ▸ hback hsize,
    hread.mpr ⟨hsize, ⟨false, 2⟩, ?_⟩, ?_⟩
  · rw [hinflate, hspelled]
  · rw [hspelled]
    exact fun h => absurd ((hwritten ⟨false, 2⟩).1.mp h) (by decide)

/-- A header of `hello` with a plus sign in front of its length, and the body. -/
def plusBeforeLength : Bytes := bytesOf "blob +5" ++ 0 :: bytesOf "hello"

/-- These bytes, compressed in the same way. -/
def plusStream : Bytes :=
  [0x78, 0x9C, 0x4B, 0xCA, 0xC9, 0x4F, 0x52, 0xD0, 0x36, 0x65, 0xC8, 0x48, 0xCD, 0xC9, 0xC9, 0x07,
    0x00, 0x1C, 0xC2, 0x04, 0x34]

theorem inflate?_plusStream : Zlib.inflate? plusStream = some plusBeforeLength := by decide +kernel

/-- It is read as `hello` and stored under its id, but it is not what `hello` is written as, and its
digest is another one. -/
theorem plus_before_length_is_stored :
    Object.ofLoose plusStream = .ok hello ∧
    Zlib.inflate? plusStream ≠ some hello.framed ∧
    ({} : LooseDir).writeCompressed hello.id plusStream = .ok ⟨[(hello.id, plusStream)]⟩ ∧
    ({} : LooseDir).Genuine ∧
    ¬ LooseDir.Genuine ⟨[(hello.id, plusStream)]⟩ := by
  have hread : Object.ofLoose plusStream = .ok hello := by
    rw [Object.ofLoose, inflate?_plusStream]
    decide +kernel
  have hempty : ({} : LooseDir).Genuine := List.forall_mem_nil _
  refine ⟨hread, ?_, ?_, hempty, fun h => ?_⟩
  · rw [inflate?_plusStream]
    decide +kernel
  · rw [LooseDir.writeCompressed, hread]
    exact if_pos rfl
  · obtain ⟨raw, hraw, hdigest⟩ := h _ (List.mem_singleton_self _)
    rw [inflate?_plusStream] at hraw
    cases hraw
    revert hdigest
    decide +kernel

end GitRemote
