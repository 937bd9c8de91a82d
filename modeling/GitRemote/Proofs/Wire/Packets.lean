import GitRemote.Wire.Sideband

/-!
# Packets as they are sent

A packet that was sent reads back, whatever follows it, and data that was cut into packets comes
together again.
-/

namespace GitRemote

theorem hexValue?_hexDigit {n : Nat} (h : n < 16) :
    Text.hexValue? (Text.hexDigit (UInt8.ofNat n)) = some (UInt8.ofNat n) := by
  have hall : ∀ i : Fin 16, Text.hexValue? (Text.hexDigit (UInt8.ofNat i)) =
      some (UInt8.ofNat i) := by decide
  exact hall ⟨n, h⟩

theorem length_hex4 (n : Nat) : (hex4 n).length = 4 := rfl

/-- A number that four digits can hold reads back. -/
theorem hex4?_hex4 {n : Nat} (h : n < 65536) : hex4? (hex4 n) = some n := by
  have hlt (k : Nat) : k % 16 < 16 := Nat.mod_lt _ (by decide)
  have hnat (k : Nat) : (UInt8.ofNat (k % 16)).toNat = k % 16 := by
    have hk := hlt k
    rw [UInt8.toNat_ofNat']
    omega
  simp only [hex4, hex4?, hexValue?_hexDigit (hlt _), hnat, Option.some.injEq]
  omega

namespace Packet

/-- The digits of a length are read first. -/
theorem read_append {digits : Bytes} (h : digits.length = 4) (rest : Bytes) :
    read (digits ++ rest) =
      match readBody digits rest with
      | (.ok p, s) => (.ok (some p), s)
      | (.error e, s) => (.error e, s) := by
  have hlong : 4 ≤ (digits ++ rest).length := by rw [List.length_append, h]; omega
  have htake : (digits ++ rest).take 4 = digits := List.take_left' h
  have hdrop : (digits ++ rest).drop 4 = rest := List.drop_left' h
  rw [read, readExactly_bytes, if_pos hlong, htake, hdrop]
  cases hbody : readBody digits rest with
  | mk r s =>
    simp only [hbody]
    cases r <;> rfl

/-- A data packet reads back. -/
theorem read_frame {payload : Bytes} (h : payload.length ≤ payloadLimit) (rest : Bytes) :
    read (frame payload ++ rest) = (.ok (some (.data payload)), rest) := by
  have hdigits : hex4? (hex4 (payload.length + 4)) = some (payload.length + 4) :=
    hex4?_hex4 (by rw [payloadLimit] at h; omega)
  have hlimit : ¬ packetLimit < payload.length + 4 := by
    rw [packetLimit]
    rw [payloadLimit] at h
    omega
  have hbody : readBody (hex4 (payload.length + 4)) (payload ++ rest) =
      (.ok (.data payload), rest) := by
    rw [readBody, hdigits]
    simp only [if_neg hlimit, readPayload, Nat.add_sub_cancel, readExactly_bytes,
      List.length_append, Nat.le_add_right, ite_true, List.take_left, List.drop_left]
  rw [frame, List.append_assoc, read_append (length_hex4 _), hbody]

/-- A control packet reads back. -/
theorem read_control (p : ControlPacket) (rest : Bytes) :
    read (p.encode ++ rest) = (.ok (some (.control p)), rest) := by
  have hlen : p.encode.length = 4 := by cases p <;> rfl
  rw [read_append hlen]
  cases p <;> rfl

theorem read_flush (rest : Bytes) :
    read (flushPacket ++ rest) = (.ok (some (.control .flush)), rest) :=
  read_control .flush rest

end Packet

/-- Data packets as they are sent, one behind the other. -/
def packets (payloads : List Bytes) : Bytes := payloads.flatMap Packet.frame

@[simp] theorem packets_nil : packets [] = [] := rfl

theorem packets_cons (payload : Bytes) (payloads : List Bytes) :
    packets (payload :: payloads) = Packet.frame payload ++ packets payloads := rfl

theorem packets_append (a b : List Bytes) : packets (a ++ b) = packets a ++ packets b :=
  List.flatMap_append

/-- The pieces together are the data. -/
theorem flatten_pieces {size : Nat} (hsize : 0 < size) {fuel : Nat} {data : Bytes}
    (h : data.length ≤ fuel) : (pieces size fuel data).flatten = data := by
  induction fuel generalizing data with
  | zero => rw [List.length_eq_zero_iff.mp (Nat.le_zero.mp h)]; rfl
  | succ fuel ih =>
    cases data with
    | nil => rfl
    | cons b data =>
      have hdrop : ((b :: data).drop size).length ≤ fuel := by
        rw [List.length_drop]
        rw [List.length_cons] at h ⊢
        omega
      rw [pieces, List.flatten_cons, ih hdrop, List.take_append_drop]

/-- No piece is longer than it may be. -/
theorem length_le_of_mem_pieces {size fuel : Nat} {data piece : Bytes}
    (h : piece ∈ pieces size fuel data) : piece.length ≤ size := by
  induction fuel generalizing data with
  | zero => simp [pieces] at h
  | succ fuel ih =>
    cases data with
    | nil => simp [pieces] at h
    | cons b data =>
      rcases List.mem_cons.mp h with rfl | h
      · exact List.length_take_le ..
      · exact ih h

/-- Data cut into bare packets. -/
theorem bandPackets_nil (room : Nat) (data : Bytes) :
    bandPackets [] room data = packets (pieces room data.length data) := rfl

/-- The payloads of the data packets at the front of a stream. -/
def payloads (s : Bytes) : List Bytes :=
  match _h : Packet.read s with
  | (.ok (some (.data payload)), rest) => payload :: payloads rest
  | _ => []
termination_by s.length
decreasing_by exact Packet.length_read_lt _h

/-- Packets that were sent are at the front of the stream, in front of what is there behind them. -/
theorem payloads_packets {ps : List Bytes} (h : ∀ p ∈ ps, p.length ≤ payloadLimit) (rest : Bytes) :
    payloads (packets ps ++ rest) = ps ++ payloads rest := by
  induction ps with
  | nil => rfl
  | cons p ps ih =>
    have hread := Packet.read_frame (h p (List.mem_cons_self ..)) (packets ps ++ rest)
    rw [packets_cons, List.append_assoc, payloads]
    split
    · next payload later hp =>
      rw [hread] at hp
      cases hp
      rw [ih fun q hq => h q (List.mem_cons_of_mem p hq), List.cons_append]
    · next hno => exact absurd hread (hno p _)

theorem payloads_nil : payloads [] = [] := by
  rw [payloads]
  rfl

/-- A stream that starts with a flush packet has no data packets at its front. -/
theorem payloads_flush (rest : Bytes) : payloads (flushPacket ++ rest) = [] := by
  rw [payloads]
  split
  · next hp =>
    rw [Packet.read_flush] at hp
    cases hp
  · rfl

end GitRemote
