import GitRemote.Text.Blank
import GitRemote.Wire.Source

/-!
# Packets

A packet is a length of four hexadecimal digits, which counts itself, and a payload. The lengths
zero, one and two mark control packets, and three is never valid. Reading takes exactly one packet's
bytes from its source.
-/

namespace GitRemote

/-- One packet. -/
inductive Packet where
  | data (payload : Bytes)
  | control (p : ControlPacket)
  deriving DecidableEq, Repr

/-- Data without the line feed at its end. -/
def dropLineFeed (b : Bytes) : Bytes := if b.getLast? = some 0x0A then b.dropLast else b

/-- A number below 65536 as four hexadecimal digits. -/
def hex4 (n : Nat) : Bytes :=
  [Text.hexDigit (UInt8.ofNat (n / 4096 % 16)), Text.hexDigit (UInt8.ofNat (n / 256 % 16)),
    Text.hexDigit (UInt8.ofNat (n / 16 % 16)), Text.hexDigit (UInt8.ofNat (n % 16))]

/-- The number written by four hexadecimal digits. -/
def hex4? : Bytes → Option Nat
  | [a, b, c, d] =>
    match Text.hexValue? a, Text.hexValue? b, Text.hexValue? c, Text.hexValue? d with
    | some a, some b, some c, some d =>
      some (a.toNat * 4096 + b.toNat * 256 + c.toNat * 16 + d.toNat)
    | _, _, _, _ => none
  | _ => none

/-- A control packet as it is sent. -/
def ControlPacket.encode : ControlPacket → Bytes
  | .flush => hex4 0
  | .delimiter => hex4 1
  | .responseEnd => hex4 2

/-- The packet that ends a section. -/
def flushPacket : Bytes := ControlPacket.flush.encode

namespace Packet

/-- A payload as it is sent. -/
def frame (payload : Bytes) : Bytes := hex4 (payload.length + 4) ++ payload

/-- A data packet as it is sent, unless it is too long. -/
def frame? (payload : Bytes) : Except WireError Bytes :=
  if payloadLimit < payload.length then .error (.packet (.payloadOverLimit payload.length))
  else .ok (frame payload)

/-- A packet as it is sent. -/
def encode? : Packet → Except WireError Bytes
  | .data payload => frame? payload
  | .control p => .ok p.encode

/-- A line as it is sent, with a line feed at its end. -/
def frameLine? (line : Bytes) : Except WireError Bytes :=
  frame? (if line.getLast? = some 0x0A then line else line ++ [0x0A])

variable {σ : Type} [ByteSource σ]

/-- Reads the payload of a packet with the given length. -/
def readPayload (n : Nat) (s : σ) : Except WireError Packet × σ :=
  match readExactly (n - 4) s with
  | (.ok payload, s) => (.ok (.data payload), s)
  | (.error .ended, s) => (.error (.packet (.cutShort n)), s)
  | (.error (.failed e), s) => (.error e, s)

/-- Reads what follows the four digits of a length. -/
def readBody (digits : Bytes) (s : σ) : Except WireError Packet × σ :=
  match hex4? digits with
  | none => (.error (.packet (.badLength digits)), s)
  | some 0 => (.ok (.control .flush), s)
  | some 1 => (.ok (.control .delimiter), s)
  | some 2 => (.ok (.control .responseEnd), s)
  | some 3 => (.error (.packet .lengthThree), s)
  | some n => if packetLimit < n then (.error (.packet (.overLimit n)), s) else readPayload n s

/-- Reads a packet. There is none where the source ends, be it in front of a packet or inside its
length. -/
def read (s : σ) : Except WireError (Option Packet) × σ :=
  match readExactly 4 s with
  | (.error .ended, s) => (.ok none, s)
  | (.error (.failed e), s) => (.error e, s)
  | (.ok digits, s) =>
    match readBody digits s with
    | (.ok p, s) => (.ok (some p), s)
    | (.error e, s) => (.error e, s)

/-- Reads a packet, which must be there. -/
def readDue (s : σ) : Except WireError Packet × σ :=
  match read s with
  | (.ok (some p), s) => (.ok p, s)
  | (.ok none, s) => (.error (.protocol .hungUp), s)
  | (.error e, s) => (.error e, s)

/-- Reads a line without its line feed; there is none at a flush packet. -/
def readLine (s : σ) : Except WireError (Option Bytes) × σ :=
  match readDue s with
  | (.ok (.data payload), s) => (.ok (some (dropLineFeed payload)), s)
  | (.ok (.control .flush), s) => (.ok none, s)
  | (.ok (.control p), s) => (.error (.protocol (.unexpectedPacket p)), s)
  | (.error e, s) => (.error e, s)

/-- Reads packets up to a flush packet or the end. A packet takes at least four bytes, so `fuel` need
not exceed their number. -/
def readSectionFrom : Nat → σ → Except WireError (List Packet) × σ
  | 0, s => (.ok [], s)
  | fuel + 1, s =>
    match read s with
    | (.error e, s) => (.error e, s)
    | (.ok none, s) => (.ok [], s)
    | (.ok (some (.control .flush)), s) => (.ok [], s)
    | (.ok (some p), s) =>
      match readSectionFrom fuel s with
      | (.error e, s) => (.error e, s)
      | (.ok rest, s) => (.ok (p :: rest), s)

/-- Reads packets up to a flush packet, which is taken too, or to the end. -/
def readSection (s : σ) : Except WireError (List Packet) × σ :=
  readSectionFrom (ByteSource.bound s + 1) s

/-- What follows the digits is not longer when it was read from memory. -/
theorem length_readBody_le {digits s rest : Bytes} {r : Except WireError Packet}
    (h : readBody digits s = (r, rest)) : rest.length ≤ s.length := by
  have hp (n : Nat) {r : Except WireError Packet} (h : readPayload n s = (r, rest)) :
      rest.length ≤ s.length := by
    rw [readPayload, readExactly_bytes] at h
    split at h <;> rename_i hs <;> split at hs <;> cases hs <;> cases h <;> simp
  rw [readBody] at h
  split at h
  case h_6 =>
    split at h
    · cases h; simp
    · exact hp _ h
  all_goals (cases h; simp)

/-- A packet read from memory takes bytes from it. -/
theorem length_read_lt {s rest : Bytes} {p : Packet} (h : read s = (.ok (some p), rest)) :
    rest.length < s.length := by
  rw [read, readExactly_bytes] at h
  by_cases hs : 4 ≤ s.length
  · simp only [if_pos hs] at h
    split at h
    case h_1 _ _ hb =>
      cases h
      have := length_readBody_le hb
      simp only [List.length_drop] at this
      omega
    case h_2 => cases h
  · simp only [if_neg hs] at h
    cases h

/-- A packet that is due takes bytes from the memory it is read from. -/
theorem length_readDue_lt {s rest : Bytes} {p : Packet} (h : readDue s = (.ok p, rest)) :
    rest.length < s.length := by
  rw [readDue] at h
  split at h
  case h_1 _ _ hr => cases h; exact length_read_lt hr
  all_goals cases h

/-- A line takes bytes from the memory it is read from. -/
theorem length_readLine_lt {s rest : Bytes} {line : Bytes}
    (h : readLine s = (.ok (some line), rest)) : rest.length < s.length := by
  rw [readLine] at h
  split at h
  case h_1 _ _ hr => cases h; exact length_readDue_lt hr
  all_goals cases h

/-- The text of a data packet without its line feed. -/
def text? : Packet → Option String
  | .data payload => Utf8.decode? (dropLineFeed payload)
  | .control _ => none

end Packet

end GitRemote
