import GitRemote.Remote.Discovery

/-!
# Requests of a stateless exchange

A child writes each request as packets with a flush packet at the end; the payloads together are the
body of one request to the server. A request that fits the buffer is sent whole; of a larger one only
the start is collected, and the rest is read while it is sent, after an empty request has shown that
the server lets the client in. `postRequest` reads that rest at one go, `postRequestIn` in the pieces
that the transport asks for.
-/

namespace GitRemote

/-- How requests are sent to a service. -/
structure Rpc where
  service : String
  /-- The repository, with a slash at the end. -/
  url : String
  /-- The greatest request that is collected before it is sent. -/
  postBuffer : Nat
  /-- Compress requests. -/
  gzip : Bool := false
  /-- The size from which on a request is worth compressing. -/
  gzipThreshold : Nat
  deriving DecidableEq, Repr

namespace Rpc

/-- A request with the headers of the service. -/
def post (x : Rpc) (body : Http.Body) : Http.Request :=
  ((Http.Request.post (x.url ++ x.service) body).withHeader
    "Content-Type" ("application/x-" ++ x.service ++ "-request")).withHeader
    "Accept" ("application/x-" ++ x.service ++ "-result")

/-- Takes a response only if it is a success. -/
def check (response : Http.Response) : Except RemoteError Http.Response :=
  if response.isSuccess then .ok response else .error (.rpc response.status response.remark?)

/-- Sends a request and takes its response only if it is a success. -/
def send (c : Http.Client) (r : Http.Request) : Except RemoteError Http.Response × Http.Client :=
  match c.send r with
  | (.error e, c) => (.error e, c)
  | (.ok response, c) => (check response, c)

/-- What was collected of a request. -/
inductive Gathered where
  | whole (body : Bytes)
  /-- The buffer cannot hold more. -/
  | start (body : Bytes)
  | failed (e : WireError)
  deriving DecidableEq, Repr

/-- What was collected, behind a payload. -/
def Gathered.behind (payload : Bytes) : Gathered → Gathered
  | .whole body => .whole (payload ++ body)
  | .start body => .start (payload ++ body)
  | .failed e => .failed e

/-- Collects a request of which the buffer holds `size` bytes already. -/
def gather (limit size : Nat) (s : Bytes) : Gathered × Bytes :=
  if limit - size < packetLimit then (.start [], s)
  else
    match _h : Packet.read s with
    | (.error e, rest) => (.failed e, rest)
    | (.ok none, rest) => (.failed (.protocol .hungUp), rest)
    | (.ok (some (.control .flush)), rest) => (.whole [], rest)
    | (.ok (some (.control p)), rest) => (.failed (.protocol (.unexpectedPacket p)), rest)
    | (.ok (some (.data payload)), rest) =>
      let (g, rest) := gather limit (size + payload.length) rest
      (g.behind payload, rest)
termination_by s.length
decreasing_by exact Packet.length_read_lt _h

/-- Reads the rest of a request while it is sent, up to a control packet. -/
def readRest (s : Bytes) : Except String Bytes × Bytes :=
  match _h : Packet.read s with
  | (.error e, rest) => (.error e.message, rest)
  | (.ok none, rest) => (.error "request ended without flush", rest)
  | (.ok (some (.control _)), rest) => (.ok [], rest)
  | (.ok (some (.data payload)), rest) =>
    let (later, rest) := readRest rest
    (later.map (payload ++ ·), rest)
termination_by s.length
decreasing_by exact Packet.length_read_lt _h

/-- A request that was collected whole. -/
def wholeRequest (x : Rpc) (body : Bytes) : Http.Request :=
  if x.gzip && x.gzipThreshold < body.length then
    (x.post (.compressed body)).withHeader "Content-Encoding" "gzip"
  else x.post (.whole body)

/-- A request of which the start was collected. -/
def streamedRequest (x : Rpc) (start : Bytes) (rest : Except String Bytes) : Http.Request :=
  x.post (.streamed (rest.map (start ++ ·)))

/-- Sends the request that starts with the payload `first` and goes on in the packets of `s`: the
response, and the packets after it. -/
def postRequest (x : Rpc) (c : Http.Client) (first s : Bytes) :
    Except RemoteError Http.Response × Bytes × Http.Client :=
  match gather x.postBuffer first.length s with
  | (.failed e, s) => (.error (.wire e), s, c)
  | (.whole body, s) =>
    let (r, c) := send c (x.wholeRequest (first ++ body))
    (r, s, c)
  | (.start body, s) =>
    match send c (x.post (.whole flushPacket)) with
    | (.error e, c) => (.error e, s, c)
    | (.ok _, c) =>
      let (rest, s) := readRest s
      let (r, c) := send c (x.streamedRequest (first ++ body) rest)
      (r, s, c)

/-! ### Bodies in pieces -/

/-- A request that is read while it is sent. -/
structure RequestStream where
  /-- What is left of the start that was collected. -/
  start : Bytes
  /-- What is left of the payload that was read last. -/
  pending : Bytes := []
  /-- The packets of the request have ended. -/
  done : Bool := false
  deriving DecidableEq, Repr

namespace RequestStream

/-- Reads packets up to one with something in it, or to the end of the request. -/
def refill (done : Bool) (s : Bytes) : Except String (Bytes × Bool) × Bytes :=
  if done then (.ok ([], true), s)
  else
    match _h : Packet.read s with
    | (.error e, rest) => (.error e.message, rest)
    | (.ok none, rest) => (.error "request ended without flush", rest)
    | (.ok (some (.control _)), rest) => (.ok ([], true), rest)
    | (.ok (some (.data payload)), rest) =>
      if payload.isEmpty then refill false rest else (.ok (payload, false), rest)
termination_by s.length
decreasing_by all_goals exact Packet.length_read_lt _h

/-- Reads at most `n` bytes. Nothing read, of a positive number, is the end. -/
def read (n : Nat) (st : RequestStream) (s : Bytes) :
    Except String Bytes × RequestStream × Bytes :=
  if st.start.take n ≠ [] then (.ok (st.start.take n), { st with start := st.start.drop n }, s)
  else if st.pending ≠ [] then
    (.ok (st.pending.take n), { st with pending := st.pending.drop n }, s)
  else
    match refill st.done s with
    | (.error e, rest) => (.error e, st, rest)
    | (.ok (pending, done), rest) =>
      (.ok (pending.take n), { st with pending := pending.drop n, done }, rest)

/-- Reads pieces of at most the given sizes up to the end. There is no answer if the sizes run out
before it. -/
def drain : List Nat → RequestStream → Bytes → Option (Except String Bytes × Bytes)
  | [], _, _ => none
  | n :: sizes, st, s =>
    match st.read n s with
    | (.error e, _, rest) => some (.error e, rest)
    | (.ok piece, st, rest) =>
      if 0 < n ∧ piece = [] then some (.ok [], rest)
      else (drain sizes st rest).map fun (later, rest) => (later.map (piece ++ ·), rest)

end RequestStream

/-- How sending a request ends: the response, the packets after it, and the client. -/
abbrev Outcome := Except RemoteError Http.Response × Bytes × Http.Client

/-- Sends a request of which the streamed part is read in pieces of at most the given sizes. There is no
answer if the sizes run out before its end. -/
def postRequestIn (x : Rpc) (sizes : List Nat) (c : Http.Client) (first s : Bytes) :
    Option Outcome :=
  match gather x.postBuffer first.length s with
  | (.failed e, s) => some (.error (.wire e), s, c)
  | (.whole body, s) =>
    let (r, c) := send c (x.wholeRequest (first ++ body))
    some (r, s, c)
  | (.start body, s) =>
    match send c (x.post (.whole flushPacket)) with
    | (.error e, c) => some (.error e, s, c)
    | (.ok _, c) =>
      (RequestStream.drain sizes ⟨first ++ body, [], false⟩ s).map fun (content, s) =>
        let (r, c) := send c (x.post (.streamed content))
        (r, s, c)

end Rpc

end GitRemote
