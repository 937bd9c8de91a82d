import GitRemote.Proofs.Wire.Packets
import Mathlib.Data.List.Basic

/-!
# Side bands lose nothing

Data and progress may be cut into packets of any sizes and mixed. What is read from the packets, with
buffers of any sizes, is the data, and nothing is read only where the data has ended; by then the progress
was passed on and the packets were used up. A message that ends everything comes behind the data in front
of it.
-/

namespace GitRemote

/-- Data to be sent on a band, and the size of its packets. -/
structure BandCall where
  band : UInt8
  data : Bytes
  size : Nat
  deriving DecidableEq, Repr

/-- Sends data on bands, one after another. -/
def sendBands : List BandCall → Except WireError Bytes
  | [] => .ok []
  | c :: calls =>
    match sendBand (some c.band) c.data c.size with
    | .error e => .error e
    | .ok bytes => (sendBands calls).map (bytes ++ ·)

/-- The data sent on one band. -/
def sentOn (band : UInt8) (calls : List BandCall) : Bytes :=
  calls.flatMap fun c => if c.band = band then c.data else []

/-- The data of one band in the payloads of packets. -/
def bandData (band : UInt8) (payloads : List Bytes) : Bytes :=
  payloads.flatMap fun p => if p.head? = some band then p.tail else []

/-- A call with data or progress, in packets that can be sent and have room for something. -/
def BandCall.Sendable (c : BandCall) : Prop :=
  (c.band = 1 ∨ c.band = 2) ∧ 6 ≤ c.size ∧ c.size ≤ packetLimit

instance (c : BandCall) : Decidable c.Sendable := inferInstanceAs (Decidable (_ ∧ _ ∧ _))

/-- The payload of a packet with data or progress. -/
def Banded (payload : Bytes) : Prop :=
  (payload.head? = some 1 ∨ payload.head? = some 2) ∧ payload.length ≤ payloadLimit

instance (payload : Bytes) : Decidable (Banded payload) :=
  inferInstanceAs (Decidable ((_ ∨ _) ∧ _))

/-! ### What is sent -/

/-- The payloads of the packets of a call. -/
def BandCall.payloads (c : BandCall) : List Bytes :=
  (pieces (c.size - 5) c.data.length c.data).map (c.band :: ·)

/-- Data that can be sent over a band goes out as packets of its pieces. -/
theorem BandCall.sendBand_eq {c : BandCall} (h : c.Sendable) :
    sendBand (some c.band) c.data c.size = .ok (packets c.payloads) := by
  obtain ⟨-, hroom, -⟩ := h
  have hlarge : ¬ c.size ≤ 4 + (some c.band).toList.length := by
    show ¬ c.size ≤ 5
    omega
  rw [sendBand]
  simp only [if_neg hlarge, bandPackets, packets, payloads, List.flatMap_map]
  rfl

/-- Each piece goes out under the number of its band. -/
theorem BandCall.banded_of_mem {c : BandCall} (h : c.Sendable) : ∀ p ∈ c.payloads, Banded p := by
  intro p hp
  obtain ⟨piece, hpiece, rfl⟩ := List.mem_map.mp hp
  obtain ⟨hband, hroom, hsize⟩ := h
  have hlength := length_le_of_mem_pieces hpiece
  refine ⟨hband.imp (congrArg some) (congrArg some), ?_⟩
  rw [packetLimit] at hsize
  rw [List.length_cons, payloadLimit]
  omega

/-- The pieces of a call together are its data. -/
theorem BandCall.bandData_payloads {c : BandCall} (h : c.Sendable) (band : UInt8) :
    bandData band c.payloads = if c.band = band then c.data else [] := by
  have hroom : 0 < c.size - 5 := by
    have hsize := h.2.1
    omega
  rw [bandData, payloads, List.flatMap_map]
  simp only [List.head?_cons, Option.some.injEq, List.tail_cons]
  by_cases hband : c.band = band
  · simp only [hband, if_true, List.flatMap_id']
    exact flatten_pieces hroom (Nat.le_refl _)
  · simp [hband]

/-- The payloads of the packets of some calls. -/
def bandPayloads (calls : List BandCall) : List Bytes := calls.flatMap BandCall.payloads

variable {calls : List BandCall}

/-- Calls that can be sent go out one after the other. -/
theorem sendBands_eq (h : ∀ c ∈ calls, c.Sendable) :
    sendBands calls = .ok (packets (bandPayloads calls)) := by
  induction calls with
  | nil => rfl
  | cons c calls ih =>
    obtain ⟨hc, hcalls⟩ := List.forall_mem_cons.mp h
    rw [sendBands, BandCall.sendBand_eq hc, ih hcalls]
    exact congrArg Except.ok (packets_append c.payloads (bandPayloads calls)).symm

theorem banded_of_mem_bandPayloads (h : ∀ c ∈ calls, c.Sendable) :
    ∀ p ∈ bandPayloads calls, Banded p := by
  intro p hp
  obtain ⟨c, hc, hp⟩ := List.mem_flatMap.mp hp
  exact BandCall.banded_of_mem (h c hc) p hp

/-- The packets of some calls carry their data. -/
theorem bandData_bandPayloads (h : ∀ c ∈ calls, c.Sendable) (band : UInt8) :
    bandData band (bandPayloads calls) = sentOn band calls := by
  rw [bandData, bandPayloads, List.flatMap_assoc, sentOn]
  exact List.flatMap_congr fun c hc => BandCall.bandData_payloads (h c hc) band

/-! ### What is read -/

namespace Demux

/-- Reads with buffers of the given sizes, one after another, up to an error. -/
def readEach : List Nat → Demux → (List Bytes × Option WireError) × Demux
  | [], d => (([], none), d)
  | n :: sizes, d =>
    match d.read n with
    | (.error e, d) => (([], some e), d)
    | (.ok piece, d) =>
      let ((pieces, e?), d) := readEach sizes d
      ((piece :: pieces, e?), d)

/-- Data and progress are still to come, and a certain rest behind their packets. -/
structure Pending (d : Demux) (data text tail : Bytes) : Prop where
  running : d.ended = false
  coming : ∃ ps, (∀ p ∈ ps, Banded p) ∧ d.rest = packets ps ++ tail ∧
    data = d.buffer ++ bandData 1 ps ∧ text = d.progress ++ bandData 2 ps

variable {d d' e : Demux} {data text tail rest : Bytes} {n : Nat} {p : Packet}

theorem fill_of_buffer (h : d.buffer ≠ []) : d.fill = (.ok (), d) := by
  rw [fill, if_neg]
  simp [h]

theorem fill_of_ended (h : d.ended = true) : d.fill = (.ok (), d) := by
  rw [fill, if_neg]
  simp [h]

/-- A packet is taken in, and reading goes on. -/
theorem fill_of_accept (hbuffer : d.buffer = []) (hrunning : d.ended = false)
    (hread : Packet.read d.rest = (.ok (some p), rest)) (haccept : accept { d with rest } p = .ok e) :
    d.fill = e.fill := by
  rw [fill, if_pos (by simp [hbuffer, hrunning])]
  split
  · next hr => rw [hread] at hr; cases hr
  · next hr => rw [hread] at hr; cases hr
  · next hr =>
    rw [hread] at hr
    cases hr
    split
    · next ha => rw [haccept] at ha; cases ha
    · next ha =>
      rw [haccept] at ha
      cases ha
      rfl

/-- A packet that is refused ends reading. -/
theorem fill_of_refuse {error : WireError} (hbuffer : d.buffer = []) (hrunning : d.ended = false)
    (hread : Packet.read d.rest = (.ok (some p), rest))
    (haccept : accept { d with rest } p = .error error) :
    d.fill = (.error error, { d with rest }) := by
  rw [fill, if_pos (by simp [hbuffer, hrunning])]
  split
  · next hr => rw [hread] at hr; cases hr
  · next hr => rw [hread] at hr; cases hr
  · next hr =>
    rw [hread] at hr
    cases hr
    split
    · next ha =>
      rw [haccept] at ha
      cases ha
      rfl
    · next ha => rw [haccept] at ha; cases ha

theorem accept_data (d : Demux) (b : Bytes) :
    d.accept (.data (1 :: b)) = .ok { d with buffer := b } := rfl

theorem accept_progress (d : Demux) (b : Bytes) :
    d.accept (.data (2 :: b)) = .ok { d with progress := d.progress ++ b } := rfl

theorem accept_message (d : Demux) (b : Bytes) :
    d.accept (.data (3 :: b)) = .error (.remote (Text.trimEnd (Utf8.decodeLossy b))) := rfl

/-- Packets are read up to one with data, or to the rest behind them. -/
theorem fill_packets {ps : List Bytes} (h : ∀ p ∈ ps, Banded p) (progress tail : Bytes) :
    (bandData 1 ps = [] ∧
      fill { rest := packets ps ++ tail, progress } =
        fill { rest := tail, progress := progress ++ bandData 2 ps }) ∨
    ∃ d', fill { rest := packets ps ++ tail, progress } = (.ok (), d') ∧ d'.buffer ≠ [] ∧
      d'.Pending (bandData 1 ps) (progress ++ bandData 2 ps) tail := by
  induction ps generalizing progress with
  | nil => exact .inl ⟨rfl, by simp [bandData]⟩
  | cons p ps ih =>
    obtain ⟨⟨hband, hlimit⟩, hps⟩ := List.forall_mem_cons.mp h
    have hread : Packet.read (packets (p :: ps) ++ tail) =
        (.ok (some (.data p)), packets ps ++ tail) := by
      rw [packets_cons, List.append_assoc, Packet.read_frame hlimit]
    rcases hband with hdata | hprogress
    · obtain ⟨b, rfl⟩ := List.head?_eq_some_iff.mp hdata
      have hfill := fill_of_accept (d := { rest := packets ((1 :: b) :: ps) ++ tail, progress }) rfl
        rfl hread (accept_data _ b)
      have hsum : bandData 1 ((1 :: b) :: ps) = b ++ bandData 1 ps ∧
          bandData 2 ((1 :: b) :: ps) = bandData 2 ps := ⟨rfl, rfl⟩
      rw [hfill, hsum.1, hsum.2]
      by_cases hb : b = []
      · rw [hb]
        exact ih hps progress
      · right
        rw [fill_of_buffer (by exact hb)]
        exact ⟨_, rfl, hb, rfl, ps, hps, rfl, rfl, rfl⟩
    · obtain ⟨b, rfl⟩ := List.head?_eq_some_iff.mp hprogress
      have hfill := fill_of_accept (d := { rest := packets ((2 :: b) :: ps) ++ tail, progress }) rfl
        rfl hread (accept_progress _ b)
      have hsum : bandData 1 ((2 :: b) :: ps) = bandData 1 ps ∧
          bandData 2 ((2 :: b) :: ps) = b ++ bandData 2 ps := ⟨rfl, rfl⟩
      rw [hfill, hsum.1, hsum.2, ← List.append_assoc]
      exact ih hps (progress ++ b)

/-- The packets are read up to where there is data to give out, or to the rest behind them if there is no
more data. -/
theorem Pending.fill (h : d.Pending data text tail) :
    (data = [] ∧ d.fill = Demux.fill { rest := tail, progress := text }) ∨
    ∃ d', d.fill = (.ok (), d') ∧ d'.buffer ≠ [] ∧ d'.Pending data text tail := by
  obtain ⟨hrunning, ps, hps, hrest, hdata, htext⟩ := h
  by_cases hbuffer : d.buffer = []
  · have hd : d = { rest := packets ps ++ tail, progress := d.progress } := by
      rw [← hrest, ← hrunning, ← hbuffer]
    rw [hbuffer, List.nil_append] at hdata
    rw [hd, hdata, htext]
    exact fill_packets hps d.progress tail
  · exact .inr ⟨d, fill_of_buffer hbuffer, hbuffer, hrunning, ps, hps, hrest, hdata, htext⟩

/-- Where data is still to come, some of it is read. -/
theorem Pending.read (h : d.Pending data text tail) (hn : 0 < n) :
    (data = [] ∧ d.read n = Demux.read n { rest := tail, progress := text }) ∨
    ∃ piece d' data', d.read n = (.ok piece, d') ∧ piece ≠ [] ∧ data = piece ++ data' ∧
      d'.Pending data' text tail := by
  rcases h.fill with ⟨hdata, hfill⟩ | ⟨d', hfill, hbuffer, hrunning, ps, hps, hrest, hdata, htext⟩
  · exact .inl ⟨hdata, by rw [Demux.read, hfill, Demux.read]⟩
  · refine .inr ⟨d'.buffer.take n, { d' with buffer := d'.buffer.drop n },
      d'.buffer.drop n ++ bandData 1 ps, ?_, ?_, ?_, hrunning, ps, hps, hrest, rfl, htext⟩
    · rw [Demux.read, hfill]
    · rw [ne_eq, List.take_eq_nil_iff]
      exact fun hempty => hempty.elim (Nat.ne_of_gt hn) hbuffer
    · rw [← List.append_assoc, List.take_append_drop, hdata]

/-- Behind the end, nothing is read. -/
theorem read_of_ended (hended : d.ended = true) (hbuffer : d.buffer = []) (n : Nat) :
    d.read n = (.ok [], d) := by
  rw [Demux.read, fill_of_ended hended]
  obtain ⟨inner, buffer, ended, progress⟩ := d
  cases hbuffer
  simp

/-- Once the bands have ended, every read gives nothing. -/
theorem readEach_of_ended (hended : d.ended = true) (hbuffer : d.buffer = []) (sizes : List Nat) :
    readEach sizes d = ((List.replicate sizes.length [], none), d) := by
  induction sizes with
  | nil => rfl
  | cons n sizes ih =>
    rw [readEach, read_of_ended hended hbuffer]
    simp only [ih, List.length_cons, List.replicate_succ]

/-- A flush packet is the end. -/
theorem fill_flush (rest text : Bytes) :
    fill { rest := flushPacket ++ rest, progress := text } =
      (.ok (), { rest, ended := true, progress := text }) := by
  rw [fill_of_accept (e := { rest, ended := true, progress := text }) rfl rfl
    (Packet.read_flush rest) rfl, fill_of_ended rfl]

/-- A flush packet ends the bands, whatever follows. -/
theorem readEach_flush (sizes : List Nat) (hne : sizes ≠ []) (rest text : Bytes) :
    readEach sizes { rest := flushPacket ++ rest, progress := text } =
      ((List.replicate sizes.length [], none), { rest, ended := true, progress := text }) := by
  obtain ⟨n, sizes, rfl⟩ := List.exists_cons_of_ne_nil hne
  rw [readEach, Demux.read, fill_flush]
  simp only [List.take_nil, List.drop_nil,
    readEach_of_ended (d := { rest, ended := true, progress := text }) rfl rfl, List.length_cons,
    List.replicate_succ]

/-- A message ends everything. -/
theorem readEach_message {message : Bytes} (hlength : message.length < payloadLimit)
    (sizes : List Nat) (hne : sizes ≠ []) (rest text : Bytes) :
    readEach sizes { rest := Packet.frame (3 :: message) ++ rest, progress := text } =
      (([], some (.remote (Text.trimEnd (Utf8.decodeLossy message)))),
        { rest, progress := text }) := by
  obtain ⟨n, sizes, rfl⟩ := List.exists_cons_of_ne_nil hne
  have hfill : fill { rest := Packet.frame (3 :: message) ++ rest, progress := text } =
      (.error (.remote (Text.trimEnd (Utf8.decodeLossy message))), { rest, progress := text }) :=
    fill_of_refuse rfl rfl (Packet.read_frame (by rw [List.length_cons]; exact hlength) rest)
      (accept_message _ message)
  rw [readEach, Demux.read, hfill]

/-- Data is read, in pieces that are not empty, until the sizes run out or nothing but the rest behind the
packets is left. -/
theorem Pending.readEach (h : d.Pending data text tail) {sizes : List Nat}
    (hsizes : ∀ n ∈ sizes, 0 < n) :
    ∃ given, [] ∉ given ∧
      ((given.flatten <+: data ∧ given.length = sizes.length ∧
          ∃ d', Demux.readEach sizes d = ((given, none), d')) ∨
        given.flatten = data ∧ ∃ left ≠ [], sizes.length = given.length + left.length ∧
          ∀ {pieces e? d'},
            Demux.readEach left { rest := tail, progress := text } = ((pieces, e?), d') →
            Demux.readEach sizes d = ((given ++ pieces, e?), d')) := by
  induction sizes generalizing d data with
  | nil => exact ⟨[], List.not_mem_nil, .inl ⟨List.nil_prefix, rfl, d, rfl⟩⟩
  | cons n sizes ih =>
    obtain ⟨hn, hsizes⟩ := List.forall_mem_cons.mp hsizes
    rcases h.read hn with ⟨rfl, hread⟩ | ⟨piece, d', data', hread, hpiece, rfl, hpending⟩
    · refine ⟨[], List.not_mem_nil, .inr ⟨rfl, n :: sizes, by simp, ?_, ?_⟩⟩
      · rw [List.length_nil, Nat.zero_add]
      · intro pieces e? d' hleft
        rw [Demux.readEach, hread, ← Demux.readEach, hleft]
        rfl
    · obtain ⟨given, hgiven, hout⟩ := ih hpending hsizes
      refine ⟨piece :: given, by simp [hgiven, Ne.symm hpiece], ?_⟩
      rcases hout with ⟨hpart, hlength, last, hlast⟩ | ⟨hflat, left, hleft, hlength, hlast⟩
      · refine .inl ⟨?_, ?_, last, ?_⟩
        · rw [List.flatten_cons]
          exact (List.prefix_append_right_inj piece).mpr hpart
        · rw [List.length_cons, List.length_cons, hlength]
        · rw [Demux.readEach, hread]
          simp only [hlast]
      · refine .inr ⟨?_, left, hleft, ?_, ?_⟩
        · rw [List.flatten_cons, hflat]
        · rw [List.length_cons, List.length_cons, hlength]
          omega
        · intro pieces e? d' hpieces
          rw [Demux.readEach, hread]
          simp only [hlast hpieces, List.cons_append]

/-- Before anything is read. -/
theorem Pending.start {ps : List Bytes} (h : ∀ p ∈ ps, Banded p) (tail : Bytes) :
    Pending { rest := packets ps ++ tail } (bandData 1 ps) (bandData 2 ps) tail :=
  ⟨rfl, ps, h, rfl, rfl, rfl⟩

end Demux

/-- There are no more pieces than bytes in them if none is empty. -/
theorem length_le_length_flatten {given : List Bytes} (h : [] ∉ given) :
    given.length ≤ given.flatten.length := by
  induction given with
  | nil => exact Nat.le_refl _
  | cons piece given ih =>
    obtain ⟨hpiece, hgiven⟩ := not_or.mp (mt List.mem_cons.mpr h)
    have hpos := List.length_pos_of_ne_nil (Ne.symm hpiece)
    have hrest := ih hgiven
    rw [List.flatten_cons, List.length_append, List.length_cons]
    omega

/-- What is read in front of a flush packet: the data, and nothing only where the data has ended. -/
theorem Demux.readEach_packets_flush {ps : List Bytes} (h : ∀ p ∈ ps, Banded p) (rest : Bytes)
    {sizes : List Nat} (hsizes : ∀ n ∈ sizes, 0 < n) :
    ∃ given k d', readEach sizes { rest := packets ps ++ (flushPacket ++ rest) } =
        ((given ++ List.replicate k [], none), d') ∧
      [] ∉ given ∧ given.flatten <+: bandData 1 ps ∧
      (0 < k → given.flatten = bandData 1 ps ∧ d'.rest = rest ∧ d'.progress = bandData 2 ps) ∧
      ((bandData 1 ps).length < sizes.length → 0 < k) := by
  obtain ⟨given, hgiven, hout⟩ := (Pending.start h (flushPacket ++ rest)).readEach hsizes
  have hlength := length_le_length_flatten hgiven
  rcases hout with ⟨hpart, hcount, d', hread⟩ | ⟨hflat, left, hleft, hcount, hread⟩
  · refine ⟨given, 0, d', ?_, hgiven, hpart, fun hk => absurd hk (Nat.lt_irrefl 0), ?_⟩
    · rw [hread, List.replicate_zero, List.append_nil]
    · have hbound := hpart.length_le
      omega
  · refine ⟨given, left.length, _, hread (readEach_flush left hleft rest _), hgiven, ?_, ?_, ?_⟩
    · exact hflat ▸ List.prefix_rfl
    · exact fun _ => ⟨hflat, rfl, rfl⟩
    · exact fun _ => List.length_pos_of_ne_nil hleft

/-- What is read in front of a message: all the data before it, and then the message as an error. -/
theorem Demux.readEach_packets_message {ps : List Bytes} (h : ∀ p ∈ ps, Banded p) {message : Bytes}
    (hmessage : message.length < payloadLimit) (rest : Bytes) {sizes : List Nat}
    (hsizes : ∀ n ∈ sizes, 0 < n) :
    ∃ given error? d',
      readEach sizes { rest := packets ps ++ (Packet.frame (3 :: message) ++ rest) } =
        ((given, error?), d') ∧
      [] ∉ given ∧ given.flatten <+: bandData 1 ps ∧
      (error? = none → given.length = sizes.length) ∧
      (∀ e, error? = some e →
        e = .remote (Text.trimEnd (Utf8.decodeLossy message)) ∧ given.flatten = bandData 1 ps) ∧
      ((bandData 1 ps).length < sizes.length → error? ≠ none) := by
  obtain ⟨given, hgiven, hout⟩ :=
    (Pending.start h (Packet.frame (3 :: message) ++ rest)).readEach hsizes
  have hlength := length_le_length_flatten hgiven
  rcases hout with ⟨hpart, hcount, d', hread⟩ | ⟨hflat, left, hleft, hcount, hread⟩
  · refine ⟨given, none, d', hread, hgiven, hpart, fun _ => hcount, ?_, ?_⟩
    · rintro e ⟨⟩
    · have hbound := hpart.length_le
      omega
  · have hread := hread (readEach_message hmessage left hleft rest _)
    rw [List.append_nil] at hread
    refine ⟨given, _, _, hread, hgiven, hflat ▸ List.prefix_rfl, nofun, ?_, fun _ => ?_⟩
    · rintro e ⟨⟩
      exact ⟨rfl, hflat⟩
    · exact Option.some_ne_none _

/-- Data and progress are sent in packets of any sizes, with a flush packet and anything else behind them.
What is read, with buffers of any sizes, is the data. Nothing is read only where all of the data was, and
by then the progress was passed on and just what is behind the flush packet is left. If a message is put
between any two of the packets, then the data in front of it is read, and the message is met behind it. -/
theorem side_bands_lose_nothing (h : ∀ c ∈ calls, c.Sendable) :
    ∃ ps, sendBands calls = .ok (packets ps) ∧ bandData 1 ps = sentOn 1 calls ∧
      (∀ rest sizes, (∀ n ∈ sizes, 0 < n) →
        ∃ given k d', Demux.readEach sizes { rest := packets ps ++ (flushPacket ++ rest) } =
            ((given ++ List.replicate k [], none), d') ∧
          [] ∉ given ∧ given.flatten <+: sentOn 1 calls ∧
          (0 < k →
            given.flatten = sentOn 1 calls ∧ d'.rest = rest ∧ d'.progress = sentOn 2 calls) ∧
          ((sentOn 1 calls).length < sizes.length → 0 < k)) ∧
      ∀ front back, ps = front ++ back → ∀ message : Bytes, message.length < payloadLimit →
        ∀ rest sizes, (∀ n ∈ sizes, 0 < n) →
          ∃ given error? d',
            Demux.readEach sizes { rest := packets front ++ (Packet.frame (3 :: message) ++
              (packets back ++ (flushPacket ++ rest))) } = ((given, error?), d') ∧
            [] ∉ given ∧ given.flatten <+: bandData 1 front ∧
            (error? = none → given.length = sizes.length) ∧
            (∀ e, error? = some e →
              e = .remote (Text.trimEnd (Utf8.decodeLossy message)) ∧
                given.flatten = bandData 1 front) ∧
            ((bandData 1 front).length < sizes.length → error? ≠ none) := by
  have hbanded := banded_of_mem_bandPayloads h
  have hdata := bandData_bandPayloads h
  refine ⟨bandPayloads calls, sendBands_eq h, hdata 1, ?_, ?_⟩
  · intro rest sizes hsizes
    have hread := Demux.readEach_packets_flush hbanded rest hsizes
    rwa [hdata 1, hdata 2] at hread
  · intro front back hps message hmessage rest sizes hsizes
    rw [hps] at hbanded
    have hfront : ∀ p ∈ front, Banded p := fun p hp => hbanded p (List.mem_append_left back hp)
    exact Demux.readEach_packets_message hfront hmessage _ hsizes

/-- Data in packets of a byte each, progress, no data at all and data in a large packet. -/
def mixedCalls : List BandCall :=
  [⟨1, [97, 98, 99], 6⟩, ⟨2, [120, 121], 7⟩, ⟨1, [], 8⟩, ⟨1, [100, 101], 65520⟩]

/-- The data is read two bytes at a time, and is all there at the end. -/
theorem side_bands_lose_nothing_mixed :
    (∀ c ∈ mixedCalls, c.Sendable) ∧
      ∃ ps, sendBands mixedCalls = .ok (packets ps) ∧
        ∃ given k d',
          Demux.readEach (List.replicate 6 2) { rest := packets ps ++ (flushPacket ++ [10]) } =
            ((given ++ List.replicate k [], none), d') ∧
          0 < k ∧ [] ∉ given ∧ given.flatten = [97, 98, 99, 100, 101] ∧ d'.rest = [10] ∧
          d'.progress = [120, 121] := by
  have hsendable : ∀ c ∈ mixedCalls, c.Sendable := by decide
  obtain ⟨ps, hsent, -, hread, -⟩ := side_bands_lose_nothing hsendable
  obtain ⟨given, k, d', hread, hgiven, -, hend, hlong⟩ :=
    hread [10] (List.replicate 6 2) (by decide)
  have hk : 0 < k := hlong (by decide)
  obtain ⟨hflat, hrest, hprogress⟩ := hend hk
  exact ⟨hsendable, ps, hsent, given, k, d', hread, hk, hgiven, hflat, hrest, hprogress⟩

end GitRemote
