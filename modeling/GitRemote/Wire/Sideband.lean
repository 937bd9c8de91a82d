import GitRemote.Wire.Packet

/-!
# Side bands

Several streams share one sequence of packets: the first byte of each payload is the band. Band one
carries the data, band two progress, band three a message that ends everything. `sendBand` cuts data
into such packets, and `Demux` is a source of the data in them.
-/

namespace GitRemote

/-- The pieces of `size` bytes, the last of them possibly shorter. A piece is never empty, so `fuel`
need not exceed the number of bytes. -/
def pieces (size : Nat) : Nat → Bytes → List Bytes
  | 0, _ => []
  | _ + 1, [] => []
  | fuel + 1, b :: rest =>
    (b :: rest).take size :: pieces size fuel ((b :: rest).drop size)

/-- Data cut into packets, each with `head` in front of a piece of at most `room` bytes. -/
def bandPackets (head : Bytes) (room : Nat) (data : Bytes) : Bytes :=
  (pieces room data.length data).flatMap fun piece => Packet.frame (head ++ piece)

/-- Cuts data into packets of at most `size` bytes, on a band or bare. No data makes no packet. -/
def sendBand (band : Option UInt8) (data : Bytes) (size : Nat) : Except WireError Bytes :=
  let head := band.toList
  if size ≤ 4 + head.length then .error (.packet (.noRoom size))
  else .ok (bandPackets head (size - (4 + head.length)) data)

/-- A source of the data in a sequence of packets with bands. -/
structure Demux where
  /-- The packets not read yet. -/
  rest : Bytes
  /-- Data that was read and not given out. -/
  buffer : Bytes := []
  ended : Bool := false
  /-- The progress met so far. -/
  progress : Bytes := []
  deriving DecidableEq, Repr

namespace Demux

/-- Takes one packet in. -/
def accept (d : Demux) : Packet → Except WireError Demux
  | .control .flush => .ok { d with ended := true }
  | .control p => .error (.protocol (.unexpectedInSideband p))
  | .data [] => .ok d
  | .data (band :: payload) =>
    if band = 1 then .ok { d with buffer := payload }
    else if band = 2 then .ok { d with progress := d.progress ++ payload }
    else if band = 3 then .error (.remote (Text.trimEnd (Utf8.decodeLossy payload)))
    else .error (.protocol (.badBand band.toNat))

/-- Taking a packet in reads nothing further. -/
theorem rest_accept {d e : Demux} {p : Packet} (h : d.accept p = .ok e) : e.rest = d.rest := by
  unfold accept at h
  split at h
  case h_4 => split at h <;> (try split at h) <;> (try split at h) <;> cases h <;> rfl
  all_goals cases h <;> rfl

/-- Reads packets until there is data to give out or the stream ends. -/
def fill (d : Demux) : Except WireError Unit × Demux :=
  if d.buffer.isEmpty && !d.ended then
    match _hr : Packet.read d.rest with
    | (.error e, rest) => (.error e, { d with rest })
    | (.ok none, rest) => (.ok (), { d with rest, ended := true })
    | (.ok (some p), rest) =>
      match _ha : accept { d with rest } p with
      | .error e => (.error e, { d with rest })
      | .ok d => fill d
  else (.ok (), d)
termination_by d.rest.length
decreasing_by
  rw [rest_accept _ha]
  exact Packet.length_read_lt _hr

/-- Reads at most `n` bytes of data. -/
def read (n : Nat) (d : Demux) : Except WireError Bytes × Demux :=
  match d.fill with
  | (.error e, d) => (.error e, d)
  | (.ok (), d) => (.ok (d.buffer.take n), { d with buffer := d.buffer.drop n })

instance : ByteSource Demux where
  readSome := read
  bound d := d.buffer.length + d.rest.length

end Demux

end GitRemote
