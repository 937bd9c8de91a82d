import GitRemote.Object.Error
import GitRemote.Process.Failure

/-!
# Errors of the wire protocol

What can go wrong while packets are read and written and the two sides talk, with the message for
each.
-/

namespace GitRemote

/-- The packets that carry no data. -/
inductive ControlPacket where
  | flush
  | delimiter
  | responseEnd
  deriving DecidableEq, Repr

/-- The name of a control packet in messages. -/
def ControlPacket.name : ControlPacket → String
  | .flush => "Flush"
  | .delimiter => "Delimiter"
  | .responseEnd => "ResponseEnd"

/-- What is wrong with a packet. -/
inductive PacketFault where
  /-- The length is not four hexadecimal digits. -/
  | badLength (digits : Bytes)
  /-- Three is no length. -/
  | lengthThree
  | overLimit (n : Nat)
  /-- The data ends inside a packet of this length. -/
  | cutShort (n : Nat)
  /-- The payload is too long for one packet. -/
  | payloadOverLimit (n : Nat)
  /-- Packets of this size could carry nothing. -/
  | noRoom (n : Nat)
  deriving DecidableEq, Repr

/-- The greatest length of a packet. -/
def packetLimit : Nat := 65520

/-- The greatest length of a payload. -/
def payloadLimit : Nat := 65516

/-- The message for a faulty packet. -/
def PacketFault.message : PacketFault → String
  | .badLength digits => "bad length prefix '" ++ Utf8.decodeLossy digits ++ "'"
  | .lengthThree => "packet length 3"
  | .overLimit n => "packet length " ++ toString n ++ " over the " ++ toString packetLimit ++ " limit"
  | .cutShort n => "stream ended inside a " ++ toString n ++ " byte packet"
  | .payloadOverLimit n =>
    toString n ++ " byte payload over the " ++ toString payloadLimit ++ " limit"
  | .noRoom n => "packet size " ++ toString n ++ " leaves no room for data"

/-- How a peer breaks the rules of the protocol. -/
inductive ProtocolFault where
  /-- The data ends where a packet is due. -/
  | hungUp
  | unexpectedPacket (p : ControlPacket)
  | badBand (n : Nat)
  | unexpectedInSideband (p : ControlPacket)
  /-- A fault that some other party words. -/
  | other (text : String)
  deriving DecidableEq, Repr

/-- The message for a broken rule. -/
def ProtocolFault.message : ProtocolFault → String
  | .hungUp => "the remote end hung up unexpectedly"
  | .unexpectedPacket p => "unexpected packet " ++ p.name
  | .badBand n => "bad band #" ++ toString n
  | .unexpectedInSideband p => "unexpected packet " ++ p.name ++ " in side-band stream"
  | .other text => text

/-- What is wrong with an advertisement of refs. -/
inductive AdvertisementFault where
  | badLine (line : Bytes)
  | notInfoRefs
  deriving DecidableEq, Repr

/-- The message for a faulty advertisement. -/
def AdvertisementFault.message : AdvertisementFault → String
  | .badLine line =>
    "protocol error: expected sha/ref, got '" ++ Utf8.decodeLossy line ++ "'"
  | .notInfoRefs => "info/refs not valid: is this a git repository?"

/-- Why an exchange failed. -/
inductive WireError where
  | packet (fault : PacketFault)
  | protocol (fault : ProtocolFault)
  | advertisement (fault : AdvertisementFault)
  /-- The other side says so. -/
  | remote (text : String)
  | program (name : String) (failure : ProgramFailure)
  | storage (cause : StorageError)
  | io (text : String)
  /-- No error that is reported: two programs wait for each other and never come back. -/
  | stalled
  deriving DecidableEq, Repr

/-- The message for an error. -/
def WireError.message : WireError → String
  | .packet fault => "invalid pkt-line: " ++ fault.message
  | .protocol fault => "protocol error: " ++ fault.message
  | .advertisement fault => fault.message
  | .remote text => "remote error: " ++ text
  | .program name failure => name ++ ": " ++ failure.message
  | .storage cause => "storage error: " ++ cause.message
  | .io text => "I/O error: " ++ text
  | .stalled => "two programs wait for each other"

end GitRemote
