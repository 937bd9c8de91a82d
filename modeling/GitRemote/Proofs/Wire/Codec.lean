import GitRemote.Proofs.Wire.Lines
import GitRemote.Proofs.Wire.Lossless
import GitRemote.Proofs.Wire.Packets
import Mathlib.Data.List.Forall2

/-!
# The grammar of packets

A packet is written as four hexadecimal digits in either case, which give its length, and its payload.
Packets are read one after another exactly as far as the bytes are such packets: at most three bytes
behind them are a clean end, and anything else is a faulty packet. It does not matter in which pieces a
source gives the bytes out.
-/

namespace GitRemote

/-! ### Digits -/

/-- A byte is the digit of a number below sixteen, in lower or upper case. -/
def IsHexDigit (b : UInt8) (v : Nat) : Prop :=
  (bytesOf "0123456789abcdef")[v]? = some b ∨ (bytesOf "0123456789ABCDEF")[v]? = some b

instance (b : UInt8) (v : Nat) : Decidable (IsHexDigit b v) := inferInstanceAs (Decidable (_ ∨ _))

/-- Four hexadecimal digits write a number. -/
def FourDigits (digits : Bytes) (n : Nat) : Prop :=
  digits.length = 4 ∧ ∃ vs, List.Forall₂ IsHexDigit digits vs ∧ vs.foldl (fun n v => n * 16 + v) 0 = n

/-- A digit is read as what it stands for. -/
theorem hexValue?_eq_some {b : UInt8} {v : Nat} :
    (Text.hexValue? b).map UInt8.toNat = some v ↔ IsHexDigit b v := by
  have hread : ∀ i : Fin 256, ∀ v ∈ (Text.hexValue? (UInt8.ofNat i)).map UInt8.toNat,
      IsHexDigit (UInt8.ofNat i) v := by decide +kernel
  have hwritten : ∀ w ∈ [bytesOf "0123456789abcdef", bytesOf "0123456789ABCDEF"], w.length = 16 ∧
      ∀ i : Fin 16, ∀ b ∈ w[i.val]?, (Text.hexValue? b).map UInt8.toNat = some i.val := by
    decide +kernel
  constructor
  · intro h
    have hb := hread ⟨b.toNat, b.toNat_lt⟩ v
    rw [UInt8.ofNat_toNat] at hb
    exact hb h
  · have hof (w : Bytes) (hw : w ∈ [bytesOf "0123456789abcdef", bytesOf "0123456789ABCDEF"])
        (h : w[v]? = some b) : (Text.hexValue? b).map UInt8.toNat = some v := by
      obtain ⟨hlen, hvalue⟩ := hwritten w hw
      have hv : v < 16 := hlen ▸ (List.getElem?_eq_some_iff.mp h).1
      exact hvalue ⟨v, hv⟩ b h
    rintro (h | h)
    · exact hof _ (List.mem_cons_self ..) h
    · exact hof _ (List.mem_cons_of_mem _ (List.mem_cons_self ..)) h

/-- Four digits are read as the number that they write. -/
theorem hex4?_eq_some {digits : Bytes} {n : Nat} :
    hex4? digits = some n ↔ FourDigits digits n := by
  constructor
  · intro h
    refine ⟨Packet.length_of_hex4? h, ?_⟩
    rw [hex4?.eq_def] at h
    split at h
    · next a b c d =>
      split at h
      · next i j k l hi hj hk hl =>
        cases h
        have hdigit {x v : UInt8} (hx : Text.hexValue? x = some v) : IsHexDigit x v.toNat :=
          hexValue?_eq_some.mp (by rw [hx]; rfl)
        refine ⟨[i.toNat, j.toNat, k.toNat, l.toNat],
          .cons (hdigit hi) (.cons (hdigit hj) (.cons (hdigit hk) (.cons (hdigit hl) .nil))), ?_⟩
        simp only [List.foldl_cons, List.foldl_nil]
        omega
      · cases h
    · cases h
  · rintro ⟨hlen, vs, hdigits, rfl⟩
    obtain ⟨a, b, c, d, rfl⟩ := List.length_eq_four.mp hlen
    obtain _ | ⟨ha, _ | ⟨hb, _ | ⟨hc, _ | ⟨hd, _ | _⟩⟩⟩⟩ := hdigits
    simp only [← hexValue?_eq_some, Option.map_eq_some_iff] at ha hb hc hd
    obtain ⟨i, hi, rfl⟩ := ha
    obtain ⟨j, hj, rfl⟩ := hb
    obtain ⟨k, hk, rfl⟩ := hc
    obtain ⟨l, hl, rfl⟩ := hd
    simp only [hex4?, hi, hj, hk, hl, List.foldl_cons, List.foldl_nil, Option.some.injEq]
    omega

/-! ### One packet -/

/-- The length that marks a control packet. -/
def ControlPacket.number : ControlPacket → Nat
  | .flush => 0
  | .delimiter => 1
  | .responseEnd => 2

namespace Packet

/-- The bytes are a written form of a packet. A length counts its four digits. -/
inductive Written : Bytes → Packet → Prop
  | control {digits : Bytes} {p : ControlPacket} (h : FourDigits digits p.number) :
      Written digits (.control p)
  | data {digits payload : Bytes} {n : Nat} (h : FourDigits digits n) (hlow : 4 ≤ n)
      (hhigh : n ≤ packetLimit) (hlen : payload.length = n - 4) :
      Written (digits ++ payload) (.data payload)

/-- What the writer makes of a packet is a written form of it. -/
theorem exists_encode? {p : Packet} (h : p.payload.length ≤ payloadLimit) :
    ∃ x, p.encode? = .ok x ∧ Written x p := by
  cases p with
  | control p =>
    refine ⟨p.encode, rfl, .control (hex4?_eq_some.mp ?_)⟩
    cases p <;> rfl
  | data payload =>
    have hlimit : payload.length ≤ 65516 := h
    refine ⟨frame payload, if_neg (Nat.not_lt_of_le h),
      .data (hex4?_eq_some.mp (hex4?_hex4 ?_)) ?_ ?_ ?_⟩
    · omega
    · omega
    · rw [packetLimit]
      omega
    · omega

/-- Bytes that are not too few start with the digits of a length. -/
theorem exists_digits {b : Bytes} (h : 4 ≤ b.length) :
    ∃ digits s, digits.length = 4 ∧ b = digits ++ s :=
  ⟨b.take 4, b.drop 4, List.length_take_of_le h, (List.take_append_drop 4 b).symm⟩

/-- Fewer than four bytes are the end of the packets. -/
theorem read_of_short {b : Bytes} (h : ¬ 4 ≤ b.length) : read b = (.ok none, []) := by
  rw [read, readExactly_bytes, if_neg h]

/-- A payload in memory is read where there are enough bytes for it. -/
theorem readPayload_bytes (n : Nat) (s : Bytes) :
    readPayload n s =
      if n - 4 ≤ s.length then (.ok (.data (s.take (n - 4))), s.drop (n - 4))
      else (.error (.packet (.cutShort n)), []) := by
  rw [readPayload, readExactly_bytes]
  split <;> split <;> simp_all

/-- What follows the digits is read as the grammar says. -/
theorem readBody_eq_ok {digits s rest : Bytes} {p : Packet} (h : readBody digits s = (.ok p, rest)) :
    ∃ payload, s = payload ++ rest ∧ Written (digits ++ payload) p := by
  rw [readBody] at h
  split at h
  case h_2 | h_3 | h_4 =>
    cases h
    refine ⟨[], rfl, ?_⟩
    rw [List.append_nil]
    exact .control (hex4?_eq_some.mp ‹_›)
  case h_6 n h0 h1 h2 h3 hn =>
    split at h
    · cases h
    · next hlimit =>
      have hlow : 4 ≤ n := by
        simp only [imp_false] at h0 h1 h2 h3
        omega
      rw [readPayload_bytes] at h
      split at h
      · next hlong =>
        cases h
        exact ⟨s.take (n - 4), (List.take_append_drop _ _).symm, .data (hex4?_eq_some.mp hn) hlow
          (Nat.le_of_not_lt hlimit) (List.length_take_of_le hlong)⟩
      · cases h
  all_goals cases h

/-- From memory, what fails behind the digits is the packet. -/
theorem readBody_eq_error {digits s rest : Bytes} {e : WireError}
    (h : readBody digits s = (.error e, rest)) : ∃ fault, e = .packet fault := by
  rw [readBody] at h
  split at h
  case h_1 | h_5 =>
    cases h
    exact ⟨_, rfl⟩
  case h_6 =>
    rw [readPayload_bytes] at h
    split at h
    · cases h
      exact ⟨_, rfl⟩
    · split at h
      · cases h
      · cases h
        exact ⟨_, rfl⟩
  all_goals cases h

/-- From memory, a packet is read exactly where a written form of it stands in front. -/
theorem read_eq_some {b rest : Bytes} {p : Packet} :
    read b = (.ok (some p), rest) ↔ ∃ x, b = x ++ rest ∧ Written x p := by
  constructor
  · intro h
    by_cases hlong : 4 ≤ b.length
    · obtain ⟨digits, s, hdigits, rfl⟩ := exists_digits hlong
      rw [read_append hdigits] at h
      rcases hbody : readBody digits s with ⟨e | q, s'⟩ <;> rw [hbody] at h <;> cases h
      obtain ⟨payload, rfl, hwritten⟩ := readBody_eq_ok hbody
      exact ⟨digits ++ payload, (List.append_assoc ..).symm, hwritten⟩
    · rw [read_of_short hlong] at h
      cases h
  · rintro ⟨x, rfl, hwritten⟩
    cases hwritten with
    | @control digits p h =>
      rw [read_append h.1, readBody, hex4?_eq_some.mpr h]
      cases p <;> rfl
    | @data digits payload n h hlow hhigh hlen =>
      obtain ⟨k, rfl⟩ : ∃ k, n = k + 4 := ⟨n - 4, by omega⟩
      obtain rfl : payload.length = k := by omega
      rw [List.append_assoc, read_append h.1, readBody, hex4?_eq_some.mpr h]
      simp only [if_neg (Nat.not_lt_of_le hhigh), readPayload_bytes, Nat.add_sub_cancel,
        List.length_append, Nat.le_add_right, ite_true, List.take_left, List.drop_left]

/-- From memory, there is no packet exactly where at most three bytes are left. -/
theorem read_eq_none {b : Bytes} : (read b).1 = .ok none ↔ b.length ≤ 3 := by
  by_cases hlong : 4 ≤ b.length
  · obtain ⟨digits, s, hdigits, rfl⟩ := exists_digits hlong
    have hmany : ¬ (digits ++ s).length ≤ 3 := by omega
    rw [read_append hdigits, iff_false_right hmany]
    rcases readBody digits s with ⟨e | p, s'⟩ <;> simp
  · rw [read_of_short hlong]
    simp only [true_iff]
    omega

/-- From memory, reading fails exactly where there are more than three bytes and no written form of a
packet stands in front. What fails is the packet. -/
theorem read_eq_fault {b : Bytes} :
    (∃ fault, (read b).1 = .error (.packet fault)) ↔
      3 < b.length ∧ ∀ x p, Written x p → ¬ x <+: b := by
  constructor
  · rintro ⟨fault, h⟩
    refine ⟨?_, ?_⟩
    · by_contra hshort
      rw [read_eq_none.mpr (Nat.le_of_not_lt hshort)] at h
      cases h
    · rintro x p hwritten ⟨rest, rfl⟩
      rw [read_eq_some.mpr ⟨x, rfl, hwritten⟩] at h
      cases h
  · rintro ⟨hlong, hno⟩
    obtain ⟨digits, s, hdigits, rfl⟩ := exists_digits hlong
    rcases hbody : readBody digits s with ⟨e | p, s'⟩
    · obtain ⟨fault, rfl⟩ := readBody_eq_error hbody
      exact ⟨fault, by rw [read_append hdigits, hbody]⟩
    · obtain ⟨payload, rfl, hwritten⟩ := readBody_eq_ok hbody
      exact absurd ⟨s', List.append_assoc ..⟩ (hno _ _ hwritten)

/-! ### Packets one after another -/

section

variable {σ : Type} [ByteSource σ]

/-- Reading a source again and again gives these packets, and leaves what it becomes. -/
inductive Reads : σ → List Packet → σ → Prop
  | nil {s : σ} : Reads s [] s
  | cons {s s₁ s' : σ} {p : Packet} {ps : List Packet} (h : read s = (.ok (some p), s₁))
      (hrest : Reads s₁ ps s') : Reads s (p :: ps) s'

/-- Reading a source gives these packets, and then it ends between two packets. -/
def EndsCleanly (s : σ) (ps : List Packet) : Prop :=
  ∃ s', Reads s ps s' ∧ (read s').1 = .ok none

/-- Reading a source gives these packets, and then it fails on a faulty one. -/
def BreaksAfter (s : σ) (ps : List Packet) : Prop :=
  ∃ s', Reads s ps s' ∧ ∃ fault, (read s').1 = .error (.packet fault)

/-- Packets are read from the content of a source as from the source. -/
theorem reads_content [LosslessSource σ] {s : σ} {ps : List Packet} {rest : Bytes} :
    Reads (content s) ps rest ↔ ∃ s', Reads s ps s' ∧ content s' = rest := by
  induction ps generalizing s with
  | nil =>
    constructor
    · rintro ⟨⟩
      exact ⟨s, .nil, rfl⟩
    · rintro ⟨s', ⟨⟩, rfl⟩
      exact .nil
  | cons p ps ih =>
    constructor
    · rintro (_ | ⟨h, hrest⟩)
      rw [read_content] at h
      rcases hread : read s with ⟨r, s₁⟩
      rw [hread] at h
      obtain ⟨rfl, rfl⟩ := Prod.mk.inj h
      obtain ⟨s', hs', hcontent⟩ := ih.mp hrest
      exact ⟨s', .cons hread hs', hcontent⟩
    · rintro ⟨s', _ | ⟨h, hrest⟩, hcontent⟩
      refine .cons ?_ (ih.mpr ⟨s', hrest, hcontent⟩)
      rw [read_content, h]
      rfl

end

/-- From memory, the packets read are those that the front of the bytes is written in. -/
theorem reads_iff {b rest : Bytes} {ps : List Packet} :
    Reads b ps rest ↔ ∃ xs, b = xs.flatten ++ rest ∧ List.Forall₂ Written xs ps := by
  induction ps generalizing b with
  | nil =>
    constructor
    · rintro ⟨⟩
      exact ⟨[], rfl, .nil⟩
    · rintro ⟨_, rfl, ⟨⟩⟩
      exact .nil
  | cons p ps ih =>
    constructor
    · rintro (_ | ⟨h, hrest⟩)
      obtain ⟨x, rfl, hx⟩ := read_eq_some.mp h
      obtain ⟨xs, rfl, hxs⟩ := ih.mp hrest
      exact ⟨x :: xs, by rw [List.flatten_cons, List.append_assoc], .cons hx hxs⟩
    · rintro ⟨_, rfl, _ | ⟨hx, hxs⟩⟩
      rw [List.flatten_cons, List.append_assoc]
      exact .cons (read_eq_some.mpr ⟨_, rfl, hx⟩) (ih.mpr ⟨_, rfl, hxs⟩)

/-- From memory, reading always comes to a clean end or to a faulty packet. -/
theorem reads_total (b : Bytes) : ∃ ps, EndsCleanly b ps ∨ BreaksAfter b ps := by
  induction hn : b.length using Nat.strongRecOn generalizing b with
  | _ n ih =>
    by_cases hshort : b.length ≤ 3
    · exact ⟨[], .inl ⟨b, .nil, read_eq_none.mpr hshort⟩⟩
    by_cases hfront : ∃ x p, Written x p ∧ x <+: b
    · obtain ⟨x, p, hwritten, rest, rfl⟩ := hfront
      have hread : read (x ++ rest) = (.ok (some p), rest) := read_eq_some.mpr ⟨x, rfl, hwritten⟩
      obtain ⟨ps, ⟨last, hps, hlast⟩ | ⟨last, hps, hlast⟩⟩ :=
        ih rest.length (hn ▸ length_read_lt hread) rest rfl
      · exact ⟨p :: ps, .inl ⟨last, .cons hread hps, hlast⟩⟩
      · exact ⟨p :: ps, .inr ⟨last, .cons hread hps, hlast⟩⟩
    · refine ⟨[], .inr ⟨b, .nil, read_eq_fault.mpr ⟨Nat.lt_of_not_le hshort, ?_⟩⟩⟩
      exact fun x p hwritten hx => hfront ⟨x, p, hwritten, hx⟩

section

variable {σ : Type} [ByteSource σ] [LosslessSource σ] {s : σ} {ps : List Packet}

/-- What a source's first packet is can be seen from its content. -/
theorem read_content_fst (s : σ) : (read (content s)).1 = (read s).1 := by
  rw [read_content]
  rfl

/-- Whether packets end cleanly depends only on the content of the source. -/
theorem endsCleanly_content : EndsCleanly (content s) ps ↔ EndsCleanly s ps := by
  simp only [EndsCleanly, reads_content]
  constructor
  · rintro ⟨_, ⟨s', hs', rfl⟩, hend⟩
    exact ⟨s', hs', read_content_fst s' ▸ hend⟩
  · rintro ⟨s', hs', hend⟩
    exact ⟨_, ⟨s', hs', rfl⟩, (read_content_fst s').trans hend⟩

/-- Whether packets break off depends only on the content of the source. -/
theorem breaksAfter_content : BreaksAfter (content s) ps ↔ BreaksAfter s ps := by
  simp only [BreaksAfter, reads_content]
  constructor
  · rintro ⟨_, ⟨s', hs', rfl⟩, hend⟩
    exact ⟨s', hs', read_content_fst s' ▸ hend⟩
  · rintro ⟨s', hs', hend⟩
    exact ⟨_, ⟨s', hs', rfl⟩, (read_content_fst s').symm ▸ hend⟩

/-- A source ends cleanly where its content is packets and at most three bytes behind them. -/
theorem endsCleanly_iff : EndsCleanly s ps ↔ ∃ xs r, content s = xs.flatten ++ r ∧
    r.length ≤ 3 ∧ List.Forall₂ Written xs ps := by
  rw [← endsCleanly_content, EndsCleanly]
  simp only [reads_iff, read_eq_none]
  constructor
  · rintro ⟨r, ⟨xs, hb, hxs⟩, hr⟩
    exact ⟨xs, r, hb, hr, hxs⟩
  · rintro ⟨xs, r, hb, hr, hxs⟩
    exact ⟨r, ⟨xs, hb, hxs⟩, hr⟩

/-- A source breaks where more than three bytes follow some packets and do not start with one. -/
theorem breaksAfter_iff : BreaksAfter s ps ↔ ∃ xs r, content s = xs.flatten ++ r ∧
    3 < r.length ∧ (∀ x p, Written x p → ¬ x <+: r) ∧ List.Forall₂ Written xs ps := by
  rw [← breaksAfter_content, BreaksAfter]
  simp only [reads_iff, read_eq_fault]
  constructor
  · rintro ⟨r, ⟨xs, hb, hxs⟩, hr, hno⟩
    exact ⟨xs, r, hb, hr, hno, hxs⟩
  · rintro ⟨xs, r, hb, hr, hno, hxs⟩
    exact ⟨r, ⟨xs, hb, hxs⟩, hr, hno⟩

/-- Packets that are not too long can be written, and what is written for them is a written form. -/
theorem exists_mapM_encode? (h : ∀ p ∈ ps, p.payload.length ≤ payloadLimit) :
    ∃ xs, ps.mapM encode? = .ok xs ∧ List.Forall₂ Written xs ps := by
  induction ps with
  | nil => exact ⟨[], rfl, .nil⟩
  | cons p ps ih =>
    obtain ⟨x, hx, hwritten⟩ := exists_encode? (h p (List.mem_cons_self ..))
    obtain ⟨xs, hxs, hall⟩ := ih fun q hq => h q (List.mem_cons_of_mem p hq)
    refine ⟨x :: xs, ?_, .cons hwritten hall⟩
    rw [List.mapM_cons, hx, hxs]
    rfl

/-- What is written for packets is read back as these packets, whatever follows, and just that is left.
A source gives packets and ends cleanly exactly where its content is written forms of them and at most
three bytes behind; otherwise it gives the packets in front of the first place where more than three
bytes start with no packet, and a faulty packet follows. -/
theorem packet_codec_exact (s : σ) :
    (∀ ps, (∀ p ∈ ps, p.payload.length ≤ payloadLimit) → ∃ xs, ps.mapM encode? = .ok xs ∧
      ∀ rest, content s = xs.flatten ++ rest → ∃ s', Reads s ps s' ∧ content s' = rest) ∧
    (∀ ps, EndsCleanly s ps ↔ ∃ xs r, content s = xs.flatten ++ r ∧ r.length ≤ 3 ∧
      List.Forall₂ Written xs ps) ∧
    (∀ ps, BreaksAfter s ps ↔ ∃ xs r, content s = xs.flatten ++ r ∧ 3 < r.length ∧
      (∀ x p, Written x p → ¬ x <+: r) ∧ List.Forall₂ Written xs ps) ∧
    ∃ ps, EndsCleanly s ps ∨ BreaksAfter s ps := by
  refine ⟨fun ps hps => ?_, fun ps => endsCleanly_iff, fun ps => breaksAfter_iff, ?_⟩
  · obtain ⟨xs, hxs, hwritten⟩ := exists_mapM_encode? hps
    exact ⟨xs, hxs, fun rest hs => reads_content.mp (reads_iff.mpr ⟨xs, hs, hwritten⟩)⟩
  · obtain ⟨ps, h⟩ := reads_total (content s)
    exact ⟨ps, h.imp endsCleanly_content.mp breaksAfter_content.mp⟩

end

/-- A line whose length is in upper case, a delimiter and a packet without data, and then a length of
three. -/
def upperCaseLine : Trickle := ⟨bytesOf "000Ahello\n000100040003"⟩

/-- The packets in front of the length of three. -/
def upperCasePackets : List Packet := [.data (bytesOf "hello\n"), .control .delimiter, .data []]

theorem upperCaseLine_breaks : BreaksAfter upperCaseLine upperCasePackets := by
  have hline : read upperCaseLine =
      (.ok (some (.data (bytesOf "hello\n"))), ⟨bytesOf "000100040003"⟩) := by decide +kernel
  have hdelimiter : read (⟨bytesOf "000100040003"⟩ : Trickle) =
      (.ok (some (.control .delimiter)), ⟨bytesOf "00040003"⟩) := by decide +kernel
  have hempty : read (⟨bytesOf "00040003"⟩ : Trickle) =
      (.ok (some (.data [])), ⟨bytesOf "0003"⟩) := by decide +kernel
  exact ⟨⟨bytesOf "0003"⟩, .cons hline (.cons hdelimiter (.cons hempty .nil)), .lengthThree,
    by decide +kernel⟩

/-- The line, the delimiter and the empty packet are all that is written in front of what is no packet. -/
theorem packet_codec_exact_upperCase :
    BreaksAfter upperCaseLine upperCasePackets ∧
    ∃ xs r, content upperCaseLine = xs.flatten ++ r ∧ 3 < r.length ∧
      (∀ x p, Written x p → ¬ x <+: r) ∧ List.Forall₂ Written xs upperCasePackets :=
  ⟨upperCaseLine_breaks, ((packet_codec_exact upperCaseLine).2.2.1 _).mp upperCaseLine_breaks⟩

end Packet

end GitRemote
