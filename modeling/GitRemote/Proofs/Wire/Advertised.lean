import GitRemote.Proofs.Object.Id
import GitRemote.Proofs.Push.Commands
import GitRemote.Proofs.Text.Utf8
import GitRemote.Proofs.Wire.Capabilities
import GitRemote.Proofs.Wire.InfoRefs
import Mathlib.Data.List.Forall2

/-!
# Advertisements that are read back

What a server means by its lines is recovered from the packets they are sent in: refs, objects without a
ref, peeled tags and shallow commits may come in any order, and the capabilities stand on the first line
that is not on a shallow commit.
-/

namespace GitRemote

/-! ### Names -/

/-- A text whose bytes end in a line feed ends in one. -/
theorem Utf8.getLast?_of_lineFeed {s : String} (h : (encode s).getLast? = some 0x0A) :
    s.toList.getLast? = some '\n' := by
  rw [encode_eq] at h
  rcases List.eq_nil_or_concat' s.toList with hs | ⟨cs, c, hs⟩
  · rw [hs] at h
    cases h
  rw [hs, List.flatMap_append, List.flatMap_singleton] at h
  rw [hs, List.getLast?_concat]
  have hmem : (0x0A : UInt8) ∈ String.utf8EncodeChar c := by
    rw [List.getLast?_append_of_ne_nil _ String.utf8EncodeChar_ne_nil] at h
    exact List.mem_of_getLast? h
  rw [(mem_utf8EncodeChar (by decide)).mp hmem]
  rfl

/-- What follows the name of a tag whose target is advertised. -/
def peelMark : String := "^\x7b\x7d"

/-- A name is that of a peeled tag if it ends with the mark. -/
theorem Advertisement.Line.isPeeled_eq_true {name : String} :
    isPeeled name = true ↔ peelMark.toList <:+ name.toList := by
  rw [isPeeled, Text.stripEnd?, Option.isSome_map, Option.isSome_iff_exists,
    ← List.reverse_prefix]
  exact exists_congr fun rest => after?_eq_some.trans eq_comm

/-! ### One line -/

namespace Packet

variable {line packet : Bytes}

/-- A packet that a line was sent in, be it as a line or as plain data. -/
def Carries (packet line : Bytes) : Prop :=
  frameLine? line = .ok packet ∨ frame? line = .ok packet

/-- A line that does not end in a line feed is read back from its packet. -/
theorem readLine_of_carries (h : Carries packet line) (hend : line.getLast? ≠ some 0x0A)
    (rest : Bytes) : readLine (packet ++ rest) = (.ok (some line), rest) := by
  have hread : ∃ payload, read (packet ++ rest) = (.ok (some (.data payload)), rest) ∧
      dropLineFeed payload = line := by
    rcases h with h | h
    · obtain ⟨hsize, rfl⟩ := frameLine?_eq_ok.mp h
      refine ⟨_, read_frame hsize rest, ?_⟩
      rw [terminated, if_neg hend, dropLineFeed, List.getLast?_concat, if_pos rfl,
        List.dropLast_concat]
    · rw [frame?] at h
      split at h
      · cases h
      · next hlimit =>
        cases h
        refine ⟨_, read_frame (Nat.le_of_not_lt hlimit) rest, ?_⟩
        rw [dropLineFeed, if_neg hend]
  obtain ⟨payload, hpacket, hline⟩ := hread
  rw [readLine, readDue, hpacket]
  simp only [hline]

end Packet

namespace Advertisement.Line

/-- A line as it is sent. -/
def bytes : Line → Bytes
  | .object id name list =>
    id.hexBytes ++ 0x20 :: (Utf8.encode name ++ list.elim [] fun list => 0 :: list)
  | .shallow id => bytesOf "shallow " ++ id.hexBytes

/-- A line that can be read back: a name is not empty and holds no NUL, and the line does not end in a
line feed. -/
structure Sound (line : Line) : Prop where
  name : ∀ id name list, line = .object id name list → name ≠ "" ∧ '\x00' ∉ name.toList
  ending : line.bytes.getLast? ≠ some 0x0A

/-- No keyword with a blank behind it stands where an id does. -/
theorem after?_hexBytes_append {keyword : Bytes} (hlen : keyword.length ≤ 40)
    (hblank : 0x20 ∈ keyword) (id : ObjectId) (rest : Bytes) :
    Text.after? keyword (id.hexBytes ++ rest) = none := by
  refine Option.eq_none_iff_forall_ne_some.mpr fun behind h => ?_
  have hsplit := after?_eq_some.mp h
  have hlead : keyword = id.hexBytes.take keyword.length := by
    rw [← List.take_append_of_le_length (by rwa [id.length_hexBytes]), hsplit, List.take_left]
  rw [hlead] at hblank
  have hdigit := ObjectId.isSome_hexValue?_of_mem_hexBytes (List.mem_of_mem_take hblank)
  revert hdigit
  decide

/-- An id and a name with a blank between them are read back. -/
theorem idAndName?_hexBytes (id : ObjectId) {name : String} (h : name ≠ "") :
    idAndName? 0x20 (id.hexBytes ++ 0x20 :: Utf8.encode name) = some (id, name) :=
  idAndName?_eq_some.mpr ⟨id.hexBytes, ObjectId.ofHex?_eq_some.mp id.ofHex?_hexBytes, h, rfl⟩

/-- A line is read back from its bytes. -/
theorem parse_bytes {line : Line} (h : line.Sound) : parse line.bytes = .ok line := by
  cases line with
  | shallow id =>
    have herr : Text.after? (bytesOf "ERR ") (bytesOf "shallow " ++ id.hexBytes) = none := rfl
    have hread : Text.after? (bytesOf "shallow ") (bytesOf "shallow " ++ id.hexBytes) =
        some id.hexBytes := after?_eq_some.mpr rfl
    rw [bytes, parse, herr]
    simp only [hread, id.ofHex?_hexBytes, Option.map_some, Option.elim_some]
  | object id name list =>
    obtain ⟨hname, hnul⟩ := h.name id name list rfl
    have hbody : ∀ b ∈ id.hexBytes ++ 0x20 :: Utf8.encode name, (b == 0) = false := by
      intro b hb
      refine beq_false_of_ne ?_
      rintro rfl
      rcases List.mem_append.mp hb with hb | hb
      · exact absurd (ObjectId.isSome_hexValue?_of_mem_hexBytes hb) (by decide)
      · rcases List.mem_cons.mp hb with hb | hb
        · exact absurd hb (by decide)
        · exact hnul ((Utf8.mem_encode (by decide)).mp hb)
    have hread : parseObject? (bytes (.object id name list)) = some (.object id name list) := by
      rw [parseObject?]
      cases list with
      | none =>
        rw [bytes, Option.elim_none, List.append_nil, cut?_eq_none.mpr hbody, Option.elim_none]
        dsimp only
        rw [idAndName?_hexBytes id hname]
        rfl
      | some list =>
        have hsplit : bytes (.object id name (some list)) =
            id.hexBytes ++ 0x20 :: Utf8.encode name ++ 0 :: list := by simp [bytes]
        rw [hsplit, cut?_eq_some.mpr ⟨0, rfl, hbody, rfl⟩, Option.elim_some]
        dsimp only
        rw [idAndName?_hexBytes id hname]
        rfl
    have hkeyword (keyword : Bytes) (hlen : keyword.length ≤ 40) (hblank : 0x20 ∈ keyword) :
        Text.after? keyword (bytes (.object id name list)) = none :=
      after?_hexBytes_append hlen hblank id _
    rw [parse, hkeyword _ (by decide) (by decide)]
    simp only [hkeyword (bytesOf "shallow ") (by decide) (by decide), hread, Option.elim_some]

end Advertisement.Line

namespace Advertisement

/-- Lines are read back from their packets, up to the flush packet and no further. -/
theorem readLines_of_carries {lines : List Line} {packets : List Bytes}
    (hsent : List.Forall₂ (fun line packet => Packet.Carries packet line.bytes) lines packets)
    (hsound : ∀ line ∈ lines, line.Sound) (rest : Bytes) :
    readLines (packets.flatten ++ flushPacket ++ rest) = (.ok lines, rest) := by
  induction hsent with
  | nil =>
    have hflush : Packet.readLine (flushPacket ++ rest) = (.ok none, rest) := by
      rw [Packet.readLine, Packet.readDue, Packet.read_flush]
    rw [List.flatten_nil, List.nil_append, readLines]
    split <;> rename_i hread <;> rw [hflush] at hread <;> cases hread
    rfl
  | @cons line packet lines packets hline hlines ih =>
    rw [List.forall_mem_cons] at hsound
    have hfirst := Packet.readLine_of_carries hline hsound.1.ending
      (packets.flatten ++ flushPacket ++ rest)
    rw [List.flatten_cons, List.append_assoc, List.append_assoc, ← List.append_assoc _ _ rest,
      readLines]
    split <;> rename_i hread <;> rw [hfirst] at hread <;> cases hread
    simp only [Line.parse_bytes hsound.1, ih hsound.2]

end Advertisement

/-! ### What a server announces -/

/-- What a line of an advertisement is meant to say. -/
inductive Announcement where
  | ref (id : ObjectId) (name : String)
  /-- The server has the object, without a ref. -/
  | extra (id : ObjectId)
  /-- The object that a tag leads to. Without refs, the same form carries the capabilities. -/
  | peeled (id : ObjectId) (name : String)
  | shallow (id : ObjectId)
  deriving DecidableEq, Repr

namespace Announcement

open Advertisement (Line)

def isShallow : Announcement → Bool
  | .shallow _ => true
  | _ => false

def ref? : Announcement → Option Ref
  | .ref id name => some { name, oldId := id }
  | _ => none

def extra? : Announcement → Option ObjectId
  | .extra id => some id
  | _ => none

def shallow? : Announcement → Option ObjectId
  | .shallow id => some id
  | _ => none

/-- The line that says it, with what stands behind a NUL if it is on an object. -/
def line (list : Option Bytes) : Announcement → Line
  | .ref id name => .object id name list
  | .extra id => .object id ".have" list
  | .peeled id name => .object id (name ++ peelMark) list
  | .shallow id => .shallow id

/-- The lines for some announcements. The first that is on an object carries the capabilities. -/
def lines (c : Capabilities) : List Announcement → List Line
  | [] => []
  | a :: rest =>
    if a.isShallow then a.line none :: lines c rest
    else a.line (some (Utf8.encode c.text)) :: rest.map (line none)

/-- A ref can be announced by its name if this is one line without NUL that is not taken for another
kind. -/
def Sound : Announcement → Prop
  | .ref _ name => name ≠ "" ∧ '\x00' ∉ name.toList ∧ name.toList.getLast? ≠ some '\n' ∧
      name ≠ ".have" ∧ ¬ peelMark.toList <:+ name.toList
  | .peeled _ name => '\x00' ∉ name.toList
  | _ => True

instance : DecidablePred Sound
  | .ref .. => inferInstanceAs (Decidable (_ ∧ _))
  | .extra _ => inferInstanceAs (Decidable True)
  | .peeled .. => inferInstanceAs (Decidable (_ ∉ _))
  | .shallow _ => inferInstanceAs (Decidable True)

variable {a : Announcement} {as : List Announcement} {c : Capabilities} {list : Option Bytes}

/-- A line that ends in a line feed does so behind its NUL, or in a name. -/
theorem getLast?_object {id : ObjectId} {name : String} (hname : name ≠ "")
    (hend : name.toList.getLast? ≠ some '\n') (hlist : ∀ l, list = some l → (0x0A : UInt8) ∉ l) :
    (Line.object id name list).bytes.getLast? ≠ some 0x0A := by
  intro h
  rw [Line.bytes, List.append_cons, ← List.append_assoc] at h
  cases list with
  | some l =>
    rw [Option.elim_some, List.getLast?_append_of_ne_nil _ (List.cons_ne_nil _ _)] at h
    rcases List.mem_cons.mp (List.mem_of_getLast? h) with h | h
    · exact absurd h (by decide)
    · exact hlist l rfl h
  | none =>
    rw [Option.elim_none, List.append_nil] at h
    rw [List.getLast?_append_of_ne_nil _ (Utf8.encode_ne_nil hname)] at h
    exact hend (Utf8.getLast?_of_lineFeed h)

/-- What a server may say makes a line that can be read, with a list of capabilities or without. -/
theorem Sound.line (h : a.Sound) (hlist : ∀ l, list = some l → (0x0A : UInt8) ∉ l) :
    (a.line list).Sound := by
  have hobject (id : ObjectId) (name : String) (hname : name ≠ "") (hnul : '\x00' ∉ name.toList)
      (hend : name.toList.getLast? ≠ some '\n') : (Line.object id name list).Sound := by
    refine ⟨?_, getLast?_object hname hend hlist⟩
    rintro _ _ _ ⟨⟩
    exact ⟨hname, hnul⟩
  cases a with
  | ref id name => exact hobject id name h.1 h.2.1 h.2.2.1
  | extra id => exact hobject id ".have" (by decide) (by decide) (by decide)
  | peeled id name =>
    have hlast : (name ++ peelMark).toList.getLast? = some '\x7d' := by
      rw [String.toList_append, List.getLast?_append_of_ne_nil _ (by decide)]
      rfl
    refine hobject id _ ?_ ?_ (by rw [hlast]; decide)
    · intro hempty
      rw [hempty] at hlast
      cases hlast
    · rw [String.toList_append, List.mem_append]
      exact not_or.mpr ⟨h, by decide⟩
  | shallow id =>
    refine ⟨nofun, fun h => ?_⟩
    have hne : id.hexBytes ≠ [] := by
      rw [← List.length_pos_iff, id.length_hexBytes]
      decide
    rw [Announcement.line, Line.bytes, List.getLast?_append_of_ne_nil _ hne] at h
    have hdigit := ObjectId.isSome_hexValue?_of_mem_hexBytes (List.mem_of_getLast? h)
    revert hdigit
    decide

/-- Every line for a sound announcement can be read back. -/
theorem sound_of_mem_lines (hsound : ∀ a ∈ as, a.Sound) (hwords : ∀ w ∈ c.words, IsWord w)
    {l : Line} (h : l ∈ lines c as) : l.Sound := by
  induction as with
  | nil => cases h
  | cons a as ih =>
    rw [List.forall_mem_cons] at hsound
    rw [lines] at h
    split at h
    · rcases List.mem_cons.mp h with rfl | h
      · exact hsound.1.line nofun
      · exact ih hsound.2 h
    · rcases List.mem_cons.mp h with rfl | h
      · refine hsound.1.line ?_
        rintro _ ⟨⟩ hlf
        exact Capabilities.lineFeed_not_mem_text hwords ((Utf8.mem_encode (by decide)).mp hlf)
      · obtain ⟨b, hb, rfl⟩ := List.mem_map.mp h
        exact (hsound.2 b hb).line nofun

/-- What is taken from each line apart from the capabilities does not depend on them. -/
theorem filterMap_lines {α : Type} {f : Line → Option α} {g : Announcement → Option α}
    (h : ∀ a ∈ as, ∀ list, f (a.line list) = g a) :
    (lines c as).filterMap f = as.filterMap g := by
  induction as with
  | nil => rfl
  | cons a as ih =>
    rw [List.forall_mem_cons] at h
    rw [lines]
    split
    · rw [List.filterMap_cons, List.filterMap_cons, h.1, ih h.2]
    · have hrest : (as.map (line none)).filterMap f = as.filterMap g := by
        rw [List.filterMap_map]
        exact List.filterMap_congr fun b hb => h.2 b hb none
      rw [List.filterMap_cons, List.filterMap_cons, h.1, hrest]

/-- The ref of a line is read back. -/
theorem ref?_line (h : a.Sound) : (a.line list).ref? = a.ref? := by
  cases a with
  | ref id name =>
    obtain ⟨-, -, -, hhave, hpeel⟩ := h
    rw [line, Line.ref?, if_neg]
    · rfl
    · rw [Bool.or_eq_true, decide_eq_true_eq, not_or]
      exact ⟨hhave, fun h => hpeel (Line.isPeeled_eq_true.mp h)⟩
  | peeled id name =>
    have hpeel : Line.isPeeled (name ++ peelMark) = true := by
      rw [Line.isPeeled_eq_true, String.toList_append]
      exact List.suffix_append _ _
    rw [line, Line.ref?, hpeel, Bool.or_true, if_pos rfl]
    rfl
  | extra id => rfl
  | shallow id => rfl

/-- A line that names no ref is read back as what it says. -/
theorem unnamed?_line (h : a.Sound) : (a.line list).unnamed? = a.extra? := by
  cases a with
  | ref id name => exact if_neg h.2.2.2.1
  | peeled id name =>
    refine if_neg fun hhave => ?_
    have hlast := congrArg (fun s : String => s.toList.getLast?) hhave
    simp only [String.toList_append] at hlast
    rw [List.getLast?_append_of_ne_nil _ (by decide)] at hlast
    revert hlast
    decide
  | extra id => rfl
  | shallow id => rfl

theorem shallow?_line : (a.line list).shallow? = a.shallow? := by cases a <;> rfl

/-- The capabilities are there if there is a line to carry them. -/
theorem capabilitiesOf_lines (hwords : ∀ w ∈ c.words, IsWord w) :
    Advertisement.capabilitiesOf (lines c as) = if as.all isShallow then {} else c := by
  have hfind : (lines c as).findSome? Line.list? =
      if as.all isShallow then none else some (some (Utf8.encode c.text)) := by
    induction as with
    | nil => rfl
    | cons a as ih =>
      rw [lines]
      cases a with
      | shallow id => exact ih
      | ref | extra | peeled => rfl
  rw [Advertisement.capabilitiesOf, hfind]
  split_ifs with hall
  · rfl
  · simp only [Utf8.decodeLossy_encode, Capabilities.parse_text hwords]

end Announcement

/-- An advertisement says what was announced. Apart from their targets the refs are as announced, and a
ref has a target if it is the first of its name and a capability gives it one. -/
structure Advertisement.Reflects (a : Advertisement) (c : Capabilities)
    (announced : List Announcement) : Prop where
  refs : a.refs.map (fun r => { r with symref := none }) = announced.filterMap Announcement.ref?
  haves : a.haves = announced.filterMap Announcement.extra?
  shallow : a.shallow = announced.filterMap Announcement.shallow?
  capabilities : a.capabilities = if announced.all Announcement.isShallow then {} else c
  targets : ∀ i r, a.refs[i]? = some r → ∀ target, r.symref = some target ↔
    (∀ q ∈ a.refs.take i, q.name ≠ r.name) ∧ c.Targets r.name target

namespace Advertisement

variable {c : Capabilities} {announced : List Announcement}

/-- The first ref of a name is the one that no ref of the name is in front of. -/
theorem findRef_eq_some_iff {refs : List Ref} {i : Nat} {r : Ref} (hr : refs[i]? = some r) :
    findRef refs r.name = some i ↔ ∀ q ∈ refs.take i, q.name ≠ r.name := by
  obtain ⟨hi, rfl⟩ := List.getElem?_eq_some_iff.mp hr
  rw [findRef_eq, List.findIdx?_eq_some_iff_getElem]
  constructor
  · rintro ⟨_, _, hbefore⟩ q hq
    obtain ⟨j, hj, rfl⟩ := List.mem_iff_getElem.mp hq
    rw [List.length_take] at hj
    have hne := hbefore j (by omega)
    rw [List.getElem_map, beq_iff_eq] at hne
    rwa [List.getElem_take]
  · intro h
    refine ⟨by rwa [List.length_map], by rw [List.getElem_map]; exact beq_self_eq_true _, ?_⟩
    intro j hj
    rw [List.getElem_map, beq_iff_eq]
    exact h _ (List.mem_take_iff_getElem.mpr ⟨j, by omega, rfl⟩)

/-- What is read from the lines for some announcements reflects them. -/
theorem reflects_ofLines (hsound : ∀ a ∈ announced, a.Sound) (hwords : ∀ w ∈ c.words, IsWord w) :
    (ofLines (Announcement.lines c announced)).Reflects c announced := by
  have hrefs : (Announcement.lines c announced).filterMap Line.ref? =
      announced.filterMap Announcement.ref? :=
    Announcement.filterMap_lines fun a ha list => Announcement.ref?_line (hsound a ha)
  have hplain : ∀ r ∈ announced.filterMap Announcement.ref?, r.symref = none := by
    intro r hr
    obtain ⟨a, -, ha⟩ := List.mem_filterMap.mp hr
    cases a <;> cases ha
    rfl
  have hcapabilities : Advertisement.capabilitiesOf (Announcement.lines c announced) = _ :=
    Announcement.capabilitiesOf_lines hwords
  refine ⟨?_, Announcement.filterMap_lines fun a ha list => Announcement.unnamed?_line (hsound a ha),
    Announcement.filterMap_lines fun a _ list => Announcement.shallow?_line, hcapabilities, ?_⟩
  · rw [ofLines, map_foldl_attachSymref (fun _ _ => rfl), hrefs]
    calc (announced.filterMap Announcement.ref?).map (fun r => { r with symref := none })
        = (announced.filterMap Announcement.ref?).map id :=
          List.map_congr_left fun r hr => by rw [← hplain r hr]; rfl
      _ = announced.filterMap Announcement.ref? := List.map_id _
  · intro i r hr target
    simp only [ofLines, hrefs, hcapabilities] at hr ⊢
    cases hall : announced.all Announcement.isShallow with
    | true =>
      have hempty : announced.filterMap Announcement.ref? = [] := by
        refine List.filterMap_eq_nil_iff.mpr fun a ha => ?_
        have hshallow := List.all_eq_true.mp hall a ha
        cases a <;> first | rfl | cases hshallow
      rw [hall, hempty] at hr
      cases hr
    | false =>
      rw [hall] at hr
      rw [← findRef_eq_some_iff hr, findRef_foldl_attachSymref]
      exact targets_foldl_attachSymref hplain hr target

end Advertisement

/-- An advertisement that was sent in packets is read back, up to its flush packet and no further, for
every sequence of announcements that can be told apart and every list of capabilities. -/
theorem advertisement_reads_back {announced : List Announcement} {c : Capabilities}
    {packets : List Bytes} (hsound : ∀ a ∈ announced, a.Sound) (hwords : ∀ w ∈ c.words, IsWord w)
    (hsent : List.Forall₂ (fun line packet => Packet.Carries packet line.bytes)
      (Announcement.lines c announced) packets) (rest : Bytes) :
    ∃ a, Advertisement.read (packets.flatten ++ flushPacket ++ rest) = (.ok a, rest) ∧
      a.Reflects c announced := by
  refine ⟨_, ?_, Advertisement.reflects_ofLines hsound hwords⟩
  rw [Advertisement.read, Advertisement.readLines_of_carries hsent
    fun line hline => Announcement.sound_of_mem_lines hsound hwords hline]

/-- A shallow repository with a tag and an object of its own. -/
def taggedAnnouncements : List Announcement :=
  [.shallow (uniformId 9), .ref (uniformId 1) "HEAD", .extra (uniformId 4),
    .ref (uniformId 3) "refs/tags/v1", .peeled (uniformId 1) "refs/tags/v1",
    .ref (uniformId 1) "refs/heads/main"]

/-- Two targets for the head, of which the second counts. -/
def taggedCapabilities : Capabilities :=
  ⟨["report-status", "symref=HEAD:refs/heads/old", "symref=HEAD:refs/heads/main"]⟩

/-- It is read back from the packets of its lines. -/
theorem advertisement_reads_back_tagged :
    (∀ a ∈ taggedAnnouncements, a.Sound) ∧ (∀ w ∈ taggedCapabilities.words, IsWord w) ∧
    ∃ a, Advertisement.read
      (((Announcement.lines taggedCapabilities taggedAnnouncements).map
        fun line => Packet.frame (terminated line.bytes)).flatten ++ flushPacket ++ bytesOf "0000") =
        (.ok a, bytesOf "0000") ∧ a.Reflects taggedCapabilities taggedAnnouncements := by
  have hsound : ∀ a ∈ taggedAnnouncements, a.Sound := by decide
  have hwords : ∀ w ∈ taggedCapabilities.words, IsWord w := by decide
  have hsize : ∀ line ∈ Announcement.lines taggedCapabilities taggedAnnouncements,
      (terminated line.bytes).length ≤ payloadLimit := by decide +kernel
  refine ⟨hsound, hwords, advertisement_reads_back hsound hwords ?_ _⟩
  exact List.forall₂_map_right_iff.mpr (List.forall₂_same.mpr fun line hline =>
    .inl (Packet.frameLine?_eq_ok.mpr ⟨hsize line hline, rfl⟩))

end GitRemote
