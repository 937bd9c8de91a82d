import GitRemote.Proofs.Http.Client
import GitRemote.Proofs.Wire.Packets
import GitRemote.Remote.Rpc

/-!
# Requests that are read from packets

A request is read up to its flush packet and no further, whether it is collected whole or in part
while it is sent. Either way its payloads together are the body of one request to the server.
-/

namespace GitRemote

/-- A request as a child writes it: packets, and a flush packet at their end. -/
def requestOf (payloads : List Bytes) : Bytes := packets payloads ++ flushPacket

theorem requestOf_nil : requestOf [] = flushPacket := rfl

theorem requestOf_cons (payload : Bytes) (payloads : List Bytes) :
    requestOf (payload :: payloads) = Packet.frame payload ++ requestOf payloads := by
  rw [requestOf, packets_cons, List.append_assoc, requestOf]

namespace Rpc

variable {payload : Bytes} {payloads : List Bytes}

/-- Where the buffer may not hold one more packet, nothing more is gathered. -/
theorem gather_of_full {limit size : Nat} (h : limit - size < packetLimit) (s : Bytes) :
    gather limit size s = (.start [], s) := by
  rw [gather, if_pos h]

/-- A flush packet ends what is gathered. -/
theorem gather_flush {limit size : Nat} (h : ¬ limit - size < packetLimit) (rest : Bytes) :
    gather limit size (flushPacket ++ rest) = (.whole [], rest) := by
  rw [gather, if_neg h]
  split
  case h_4 hno hread =>
    rw [Packet.read_flush] at hread
    cases hread
    exact absurd rfl hno
  all_goals rename_i hread; rw [Packet.read_flush] at hread; cases hread
  rfl

/-- A payload is gathered ahead of those that follow. -/
theorem gather_frame {limit size : Nat} (h : ¬ limit - size < packetLimit)
    (hp : payload.length ≤ payloadLimit) (rest : Bytes) :
    gather limit size (Packet.frame payload ++ rest) =
      ((gather limit (size + payload.length) rest).1.behind payload,
        (gather limit (size + payload.length) rest).2) := by
  rw [gather, if_neg h]
  split <;> rename_i hread <;> rw [Packet.read_frame hp] at hread <;> cases hread
  rfl

/-- A request that the buffer can hold is collected whole. -/
theorem gather_whole {limit size : Nat} (h : ∀ p ∈ payloads, p.length ≤ payloadLimit)
    (hroom : ¬ limit - (size + payloads.flatten.length) < packetLimit) (rest : Bytes) :
    gather limit size (requestOf payloads ++ rest) = (.whole payloads.flatten, rest) := by
  induction payloads generalizing size with
  | nil => exact gather_flush hroom rest
  | cons p payloads ih =>
    rw [List.flatten_cons, List.length_append] at hroom
    have hnow : ¬ limit - size < packetLimit := by omega
    have hlater : ¬ limit - (size + p.length + payloads.flatten.length) < packetLimit := by
      rwa [Nat.add_assoc]
    rw [requestOf_cons, List.append_assoc, gather_frame hnow (h p (List.mem_cons_self ..)),
      ih (fun q hq => h q (List.mem_cons_of_mem p hq)) hlater]
    rfl

/-- Of a request that the buffer cannot hold a start is collected, and what follows is left. -/
theorem gather_start {limit size : Nat} (h : ∀ p ∈ payloads, p.length ≤ payloadLimit)
    (hroom : limit - (size + payloads.flatten.length) < packetLimit) (rest : Bytes) :
    ∃ front back, payloads = front ++ back ∧
      gather limit size (requestOf payloads ++ rest) =
        (.start front.flatten, requestOf back ++ rest) := by
  induction payloads generalizing size with
  | nil => exact ⟨[], [], rfl, gather_of_full hroom _⟩
  | cons p payloads ih =>
    by_cases hnow : limit - size < packetLimit
    · exact ⟨[], p :: payloads, rfl, gather_of_full hnow _⟩
    have hlater : limit - (size + p.length + payloads.flatten.length) < packetLimit := by
      rwa [List.flatten_cons, List.length_append, ← Nat.add_assoc] at hroom
    obtain ⟨front, back, rfl, hgather⟩ := ih (fun q hq => h q (List.mem_cons_of_mem p hq)) hlater
    refine ⟨p :: front, back, rfl, ?_⟩
    rw [requestOf_cons, List.append_assoc, gather_frame hnow (h p (List.mem_cons_self ..)), hgather]
    rfl

/-- The rest of a request is read up to its flush packet. -/
theorem readRest_eq (h : ∀ p ∈ payloads, p.length ≤ payloadLimit) (rest : Bytes) :
    readRest (requestOf payloads ++ rest) = (.ok payloads.flatten, rest) := by
  induction payloads with
  | nil =>
    rw [requestOf_nil, readRest]
    split <;> rename_i hread <;> rw [Packet.read_flush] at hread <;> cases hread
    rfl
  | cons p payloads ih =>
    have hread := Packet.read_frame (h p (List.mem_cons_self ..)) (requestOf payloads ++ rest)
    have hlater := ih fun q hq => h q (List.mem_cons_of_mem p hq)
    rw [requestOf_cons, List.append_assoc, readRest]
    split <;> rename_i hread' <;> rw [hread] at hread' <;> cases hread'
    rw [hlater]
    rfl

end Rpc

namespace Rpc

/-- Whether a request is too large to be collected. -/
def IsLarge (rpc : Rpc) (body : Bytes) : Prop := rpc.postBuffer - body.length < packetLimit

instance (rpc : Rpc) (body : Bytes) : Decidable (rpc.IsLarge body) :=
  inferInstanceAs (Decidable (_ < _))

/-- A request to the service as it reaches the server. -/
def receivedPost (rpc : Rpc) (auth : Option Http.BasicAuth) (body : Bytes)
    (streamed zipped : Bool) : Http.Received where
  method := .post
  url := rpc.url ++ rpc.service
  headers := [("Content-Type", "application/x-" ++ rpc.service ++ "-request"),
    ("Accept", "application/x-" ++ rpc.service ++ "-result")] ++
      if zipped then [("Content-Encoding", "gzip")] else []
  body := body
  streamed := streamed
  auth := auth

/-- What reaches the server of a request: one request with this body, and ahead of it a flush packet
if the request is too large to be collected. -/
def postsOf (rpc : Rpc) (auth : Option Http.BasicAuth) (body : Bytes) : List Http.Received :=
  if rpc.IsLarge body then
    [rpc.receivedPost auth flushPacket false false, rpc.receivedPost auth body true false]
  else [rpc.receivedPost auth body false (rpc.gzip && rpc.gzipThreshold < body.length)]

/-- The responses of a server to a request: to what may go ahead of it, and to the request itself. -/
def answersTo (rpc : Rpc) (body : Bytes) (probed answer : Http.Response) : List Http.Response :=
  if rpc.IsLarge body then [probed, answer] else [answer]

end Rpc

/-- One request of a child, and how the server answers what is sent for it. -/
structure Turn where
  first : Bytes
  more : List Bytes
  probed : Http.Response
  answer : Http.Response
  length_le : ∀ p ∈ first :: more, p.length ≤ payloadLimit
  probed_isSuccess : probed.isSuccess = true
  answer_isSuccess : answer.isSuccess = true

namespace Turn

/-- The packets of a turn, as the child writes them. -/
def request (t : Turn) : Bytes := requestOf (t.first :: t.more)

/-- The payloads of a turn together. -/
def body (t : Turn) : Bytes := (t.first :: t.more).flatten

/-- The responses of a server to the requests of a turn. -/
def answers (rpc : Rpc) (t : Turn) : List Http.Response := rpc.answersTo t.body t.probed t.answer

end Turn

namespace Rpc

variable {rpc : Rpc} {c : Http.Client}

/-- A request that is answered with success is made once, and the answer is its response. -/
theorem send_eq {r : Http.Request} {content : Bytes × Bool} {response : Http.Response}
    {later : List Http.Response} (h : c.Settles) (hauth : r.auth = none)
    (hbody : r.body.content = .ok content) (hserver : c.server.responses = response :: later)
    (hok : response.isSuccess = true) :
    ∃ c', send c r = (.ok response, c') ∧ c.Continues c' ∧
      c'.server = ⟨later, c.server.requests ++ [{ r with auth := c.auth? }.received content]⟩ := by
  obtain ⟨c', hsend, hc'⟩ := Http.Client.send_eq h hauth hbody hserver hok
  refine ⟨c', ?_, hc'⟩
  rw [send, hsend]
  simp only [check, hok, ite_true]

theorem auth_wholeRequest (rpc : Rpc) (body : Bytes) : (rpc.wholeRequest body).auth = none := by
  rw [wholeRequest]
  split <;> rfl

theorem content_wholeRequest (rpc : Rpc) (body : Bytes) :
    (rpc.wholeRequest body).body.content = .ok (body, false) := by
  rw [wholeRequest]
  split <;> rfl

/-- How the server receives a request that is made with its whole body. -/
theorem received_wholeRequest (auth : Option Http.BasicAuth) (body : Bytes) :
    { rpc.wholeRequest body with auth }.received (body, false) =
      rpc.receivedPost auth body false (rpc.gzip && rpc.gzipThreshold < body.length) := by
  rw [wholeRequest]
  cases hzip : rpc.gzip && decide (rpc.gzipThreshold < body.length) <;> rfl

/-- A turn's request is read up to its end and reaches the server as its payloads. -/
theorem postRequest_eq {t : Turn} {later : List Http.Response} (h : c.Settles)
    (hserver : c.server.responses = t.answers rpc ++ later) (rest : Bytes) :
    ∃ c', rpc.postRequest c t.first (requestOf t.more ++ rest) = (.ok t.answer, rest, c') ∧
      c.Continues c' ∧ c'.server = ⟨later, c.server.requests ++ rpc.postsOf c.auth? t.body⟩ := by
  have hmore : ∀ p ∈ t.more, p.length ≤ payloadLimit :=
    fun p hp => t.length_le p (List.mem_cons_of_mem _ hp)
  have hlength : t.body.length = t.first.length + t.more.flatten.length := by
    rw [Turn.body, List.flatten_cons, List.length_append]
  have hposts (x : Http.Received) (xs : List Http.Received) : c.server.requests ++ [x] ++ xs =
      c.server.requests ++ (x :: xs) := by rw [List.append_assoc, List.singleton_append]
  by_cases hlarge : rpc.IsLarge t.body
  · rw [Turn.answers, answersTo, if_pos hlarge] at hserver
    obtain ⟨probed, hprobe, hcontinues, hprobed⟩ :=
      send_eq (r := rpc.post (.whole flushPacket)) h rfl rfl hserver t.probed_isSuccess
    obtain ⟨front, back, hsplit, hgather⟩ :=
      gather_start hmore (by rwa [IsLarge, hlength] at hlarge) rest
    have hback : ∀ p ∈ back, p.length ≤ payloadLimit :=
      fun p hp => hmore p (by rw [hsplit]; exact List.mem_append_right front hp)
    have hbody : t.first ++ front.flatten ++ back.flatten = t.body := by
      rw [Turn.body, hsplit, List.flatten_cons, List.flatten_append, List.append_assoc]
    obtain ⟨c', hsend, hlater, hanswered⟩ :=
      send_eq (r := rpc.streamedRequest (t.first ++ front.flatten) (.ok back.flatten))
        (hcontinues.settles h) rfl rfl (by rw [hprobed]; rfl) t.answer_isSuccess
    refine ⟨c', ?_, hcontinues.trans hlater, ?_⟩
    · rw [postRequest, hgather]
      simp only [hprobe, readRest_eq hback, hsend]
    · rw [hanswered, hprobed, hcontinues.auth?_eq, postsOf, if_pos hlarge, hposts, ← hbody]
      rfl
  · rw [Turn.answers, answersTo, if_neg hlarge, List.singleton_append] at hserver
    obtain ⟨c', hsend, hcontinues, hanswered⟩ :=
      send_eq h (auth_wholeRequest rpc t.body) (content_wholeRequest rpc t.body) hserver
        t.answer_isSuccess
    refine ⟨c', ?_, hcontinues, ?_⟩
    · rw [postRequest, gather_whole hmore (by rwa [IsLarge, hlength] at hlarge)]
      rw [Turn.body, List.flatten_cons] at hsend
      simp only [hsend]
    · rw [hanswered, received_wholeRequest, postsOf, if_neg hlarge]

end Rpc

end GitRemote
