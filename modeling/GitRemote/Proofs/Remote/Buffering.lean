import GitRemote.Proofs.Remote.Request
import GitRemote.Proofs.Remote.Streaming

/-!
# Requests that are collected and requests that are streamed

A request has the data packets at the front of a stream as its body, whether it is collected or read
while it is sent. The two part ways only over the packet that ends it: whoever collects a request wants
a flush packet, and whoever streams it takes any control packet.
-/

namespace GitRemote

/-! ### The packet that ends a request -/

/-- The control packet behind the data packets at the front of a stream, if there is one, and what is
left behind it. -/
def ending (s : Bytes) : Except WireError (Option ControlPacket) × Bytes :=
  match _h : Packet.read s with
  | (.error e, rest) => (.error e, rest)
  | (.ok none, rest) => (.ok none, rest)
  | (.ok (some (.control p)), rest) => (.ok (some p), rest)
  | (.ok (some (.data _)), rest) => ending rest
termination_by s.length
decreasing_by exact Packet.length_read_lt _h

section

variable {s rest payload : Bytes}

/-- The first payload is that of the packet that is read first. -/
theorem payloads_of_read (h : Packet.read s = (.ok (some (.data payload)), rest)) :
    payloads s = payload :: payloads rest := by
  rw [payloads]
  split
  · next hread =>
    rw [h] at hread
    cases hread
    rfl
  · next hno => exact absurd h (hno payload rest)

theorem payloads_of_not_data (h : ∀ payload rest, Packet.read s ≠ (.ok (some (.data payload)), rest)) :
    payloads s = [] := by
  rw [payloads]
  split
  · next hread => exact absurd hread (h _ _)
  · rfl

/-- A data packet in front does not change how the packets end. -/
theorem ending_of_read (h : Packet.read s = (.ok (some (.data payload)), rest)) :
    ending s = ending rest := by
  rw [ending]
  split <;> rename_i hread <;> rw [h] at hread <;> cases hread
  rfl

end

/-- The data packets in front are followed by a control packet that does not end a request. -/
def Interrupted (s : Bytes) : Prop := ∃ p, (ending s).1 = .ok (some p) ∧ p ≠ .flush

/-- Packets that are interrupted do not end with a flush packet. -/
theorem Interrupted.not_flush {s : Bytes} (h : Interrupted s) :
    (ending s).1 ≠ .ok (some .flush) := by
  obtain ⟨p, hending, hp⟩ := h
  rw [hending]
  rintro ⟨⟩
  exact hp rfl

namespace Rpc

/-- What becomes of a request that is streamed. -/
def streamedEnd (body : Bytes) : Except WireError (Option ControlPacket) → Except String Bytes
  | .error e => .error e.message
  | .ok none => .error "request ended without flush"
  | .ok (some _) => .ok body

/-- What becomes of a request that is collected. -/
def collectedEnd (body : Bytes) : Except WireError (Option ControlPacket) → Gathered
  | .error e => .failed e
  | .ok none => .failed (.protocol .hungUp)
  | .ok (some .flush) => .whole body
  | .ok (some p) => .failed (.protocol (.unexpectedPacket p))

theorem map_streamedEnd (payload body : Bytes) (r : Except WireError (Option ControlPacket)) :
    (streamedEnd body r).map (payload ++ ·) = streamedEnd (payload ++ body) r := by
  rcases r with e | _ | _ <;> rfl

theorem behind_collectedEnd (payload body : Bytes) (r : Except WireError (Option ControlPacket)) :
    (collectedEnd body r).behind payload = collectedEnd (payload ++ body) r := by
  rcases r with e | _ | _ | _ | _ <;> rfl

/-- Streaming reads the data packets and whatever control packet is behind them. -/
theorem readRest_eq_ending (s : Bytes) :
    readRest s = (streamedEnd (payloads s).flatten (ending s).1, (ending s).2) := by
  fun_induction readRest s with
  | case1 s e rest hread | case2 s rest hread | case3 s p rest hread =>
    rw [payloads_of_not_data (by rw [hread]; nofun), ending]
    split <;> rename_i hread' <;> rw [hread] at hread' <;> cases hread'
    rfl
  | case4 s payload rest hread r rest' hrest ih =>
    rw [payloads_of_read hread, ending_of_read hread, List.flatten_cons, ← map_streamedEnd]
    rw [hrest] at ih
    cases ih
    rfl

/-- Of a request that the buffer can hold the data packets are collected, and it ends with a flush
packet. -/
theorem gather_of_small {limit size : Nat} {s : Bytes}
    (h : ¬ limit - (size + (payloads s).flatten.length) < packetLimit) :
    gather limit size s = (collectedEnd (payloads s).flatten (ending s).1, (ending s).2) := by
  fun_induction gather limit size s with
  | case1 size s hfull => omega
  | case2 size s hfull e rest hread | case3 size s hfull rest hread
  | case4 size s hfull rest hread | case5 size s hfull p rest hp hread =>
    rw [payloads_of_not_data (by rw [hread]; nofun), ending]
    split <;> rename_i hread' <;> rw [hread] at hread' <;> cases hread'
    first | rfl | (cases p <;> first | rfl | exact absurd rfl hp)
  | case6 size s hfull payload rest hread g rest' hrest ih =>
    rw [payloads_of_read hread, List.flatten_cons, List.length_append, ← Nat.add_assoc] at h
    rw [payloads_of_read hread, ending_of_read hread, List.flatten_cons]
    have hlater := ih h
    rw [hrest] at hlater
    cases hlater
    rw [behind_collectedEnd]

/-- Of a request that the buffer cannot hold some data packets are collected, and the others are left in
front of its end. -/
theorem gather_of_large {limit size : Nat} {s : Bytes}
    (h : limit - (size + (payloads s).flatten.length) < packetLimit) :
    ∃ start later, gather limit size s = (.start start, later) ∧
      (payloads s).flatten = start ++ (payloads later).flatten ∧ ending later = ending s := by
  fun_induction gather limit size s with
  | case1 size s hfull => exact ⟨[], s, rfl, rfl, rfl⟩
  | case2 size s hfull e rest hread | case3 size s hfull rest hread
  | case4 size s hfull rest hread | case5 size s hfull p rest hp hread =>
    rw [payloads_of_not_data (by rw [hread]; nofun)] at h
    exact absurd h hfull
  | case6 size s hfull payload rest hread g rest' hrest ih =>
    rw [payloads_of_read hread, List.flatten_cons, List.length_append, ← Nat.add_assoc] at h
    obtain ⟨start, later, hlater, hsplit, hending⟩ := ih h
    rw [hrest] at hlater
    cases hlater
    refine ⟨payload ++ start, rest', rfl, ?_, by rw [hending, ending_of_read hread]⟩
    rw [payloads_of_read hread, List.flatten_cons, hsplit, List.append_assoc]

/-! ### What becomes of a request -/

variable {x : Rpc} {c : Http.Client} {r : Http.Request} {first s : Bytes}

/-- A server that answers what is sent for a request with success. -/
structure Obliges (server : Http.Server) : Prop where
  enough : 2 ≤ server.responses.length
  success : ∀ response ∈ server.responses, response.isSuccess = true

/-- A request was not sent, or its response was not taken. -/
def Outcome.Failed (out : Outcome) : Prop := ∃ e, out.1 = .error e

/-- A request was sent with this body, and its response was taken. One flush packet may have been sent
ahead of it. Of the packets these are left. -/
structure Outcome.Posted (x : Rpc) (c : Http.Client) (body rest : Bytes) (out : Outcome) : Prop where
  taken : ∃ response, out.1 = .ok response
  left : out.2.1 = rest
  requests : ∃ probes streamed zipped,
    (probes = [] ∨ probes = [x.receivedPost c.auth? flushPacket false false]) ∧
    out.2.2.server.requests =
      c.server.requests ++ probes ++ [x.receivedPost c.auth? body streamed zipped]

theorem Outcome.Posted.not_failed {body rest : Bytes} {out : Outcome} (h : out.Posted x c body rest) :
    ¬ out.Failed := by
  rintro ⟨e, he⟩
  obtain ⟨response, htaken⟩ := h.taken
  rw [he] at htaken
  cases htaken

/-- A client that accepts the answer of a server makes the request once. -/
theorem send_eq_of_accepts {content : Bytes × Bool} {response : Http.Response}
    {later : List Http.Response} (h : c.Accepts) (hauth : r.auth = none)
    (hbody : r.body.content = .ok content) (hserver : c.server.responses = response :: later)
    (hok : response.isSuccess = true) :
    ∃ c', send c r = (.ok response, c') ∧ c.Continues c' ∧ c'.Accepts ∧
      c'.server = ⟨later, c.server.requests ++ [{ r with auth := c.auth? }.received content]⟩ := by
  obtain ⟨c', hsend, hc'⟩ := Http.Client.send_eq_of_accepts h hauth hbody hserver hok
  refine ⟨c', ?_, hc'⟩
  rw [send, hsend]
  simp only [check, hok, ite_true]

/-- An error of the client is the error of the request. -/
theorem send_of_error {e : RemoteError} (h : (c.send r).1 = .error e) :
    (send c r).1 = .error e := by
  rcases hsend : c.send r with ⟨result, c'⟩
  rw [hsend] at h
  obtain rfl : result = .error e := h
  rw [send, hsend]

/-- A body that cannot be read to its end is not sent. -/
theorem send_of_unreadable {text : String} (h : r.body.content = .error text) :
    (send c r).1 = .error (.io text) := by
  have hbody : (c.authorize r).body = r.body := by
    rw [Http.Client.authorize]
    split <;> rfl
  apply send_of_error
  rw [Http.Client.send, Http.Client.execute, Http.Server.answer, hbody, h]

/-- A request goes through if its end is accepted and the helper does not stand in the way. -/
def Goes (x : Rpc) (c : Http.Client) (first s : Bytes) : Prop :=
  c.Accepts ∧ ∃ p, (ending s).1 = .ok (some p) ∧
    (p = .flush ∨ x.IsLarge (first ++ (payloads s).flatten))

/-- A request goes through if its packets end with a flush packet, or if another control packet cuts
them off where it is too large to be collected. -/
theorem goes_iff : x.Goes c first s ↔ c.Accepts ∧
    ((ending s).1 = .ok (some .flush) ∨
      Interrupted s ∧ x.IsLarge (first ++ (payloads s).flatten)) := by
  refine and_congr_right fun _ => ⟨?_, ?_⟩
  · rintro ⟨p, hending, hp⟩
    by_cases hflush : p = .flush
    · exact .inl (hflush ▸ hending)
    · exact .inr ⟨⟨p, hending, hflush⟩, hp.resolve_left hflush⟩
  · rintro (hflush | ⟨⟨p, hending, -⟩, hlarge⟩)
    · exact ⟨.flush, hflush, .inl rfl⟩
    · exact ⟨p, hending, .inr hlarge⟩

theorem isLarge_iff : x.IsLarge (first ++ (payloads s).flatten) ↔
    x.postBuffer - (first.length + (payloads s).flatten.length) < packetLimit := by
  rw [IsLarge, List.length_append]

/-- A request that goes through is sent with the data packets in front of its end as its body. -/
theorem posted_of_goes (hserver : Obliges c.server) (h : x.Goes c first s) :
    Outcome.Posted x c (first ++ (payloads s).flatten) (ending s).2 (x.postRequest c first s) := by
  obtain ⟨haccepts, p, hending, hp⟩ := h
  obtain ⟨probed, answer, later, hresponses⟩ : ∃ probed answer later,
      c.server.responses = probed :: answer :: later := by
    match hlist : c.server.responses, hserver.enough with
    | probed :: answer :: later, _ => exact ⟨probed, answer, later, rfl⟩
  have hsuccess := hserver.success
  rw [hresponses, List.forall_mem_cons, List.forall_mem_cons] at hsuccess
  by_cases hlarge : x.IsLarge (first ++ (payloads s).flatten)
  · obtain ⟨start, left, hgather, hsplit, hsame⟩ := gather_of_large (isLarge_iff.mp hlarge)
    obtain ⟨c₁, hprobe, hcontinues, haccepts₁, hserver₁⟩ := send_eq_of_accepts
      (r := x.post (.whole flushPacket)) haccepts rfl rfl hresponses hsuccess.1
    have hrest := readRest_eq_ending left
    rw [hsame, hending, streamedEnd] at hrest
    obtain ⟨c₂, hsend, -, -, hserver₂⟩ := send_eq_of_accepts
      (r := x.streamedRequest (first ++ start) (.ok (payloads left).flatten)) haccepts₁ rfl rfl
      (by rw [hserver₁]) hsuccess.2.1
    have hpost : x.postRequest c first s = (.ok answer, (ending s).2, c₂) := by
      rw [postRequest, hgather]
      simp only [hprobe, hrest, hsend]
    rw [hpost]
    refine ⟨⟨answer, rfl⟩, rfl, _, true, false, .inr rfl, ?_⟩
    rw [hserver₂, hserver₁, hcontinues.auth?_eq, hsplit, ← List.append_assoc]
    rfl
  · obtain rfl : p = .flush := hp.resolve_right hlarge
    have hgather := gather_of_small (mt isLarge_iff.mpr hlarge)
    rw [hending, collectedEnd] at hgather
    obtain ⟨c₁, hsend, -, -, hserver₁⟩ := send_eq_of_accepts haccepts
      (auth_wholeRequest x _) (content_wholeRequest x (first ++ (payloads s).flatten)) hresponses
      hsuccess.1
    have hpost : x.postRequest c first s = (.ok probed, (ending s).2, c₁) := by
      rw [postRequest, hgather]
      simp only [hsend]
    rw [hpost]
    refine ⟨⟨probed, rfl⟩, rfl, [], false,
      x.gzip && x.gzipThreshold < (first ++ (payloads s).flatten).length, .inl rfl, ?_⟩
    rw [hserver₁, received_wholeRequest, List.append_nil]

/-- A large request fails if the probe is not accepted or the request does not end with a packet. -/
theorem failed_of_large {probed : Http.Response} {later : List Http.Response}
    (hresponses : c.server.responses = probed :: later) (hsuccess : probed.isSuccess = true)
    (hlarge : x.IsLarge (first ++ (payloads s).flatten))
    (h : c.Accepts → ∀ p, (ending s).1 ≠ .ok (some p)) :
    Outcome.Failed (x.postRequest c first s) := by
  obtain ⟨start, left, hgather, -, hsame⟩ := gather_of_large (isLarge_iff.mp hlarge)
  by_cases haccepts : c.Accepts
  · obtain ⟨c₁, hprobe, -⟩ := send_eq_of_accepts
      (r := x.post (.whole flushPacket)) haccepts rfl rfl hresponses hsuccess
    obtain ⟨text, hunread⟩ : ∃ text, streamedEnd (payloads left).flatten (ending s).1 =
        .error text := by
      rcases hending : (ending s).1 with e | _ | p
      · exact ⟨_, rfl⟩
      · exact ⟨_, rfl⟩
      · exact absurd hending (h haccepts p)
    have hrest := readRest_eq_ending left
    rw [hsame, hunread] at hrest
    refine ⟨.io text, ?_⟩
    rw [postRequest, hgather]
    simp only [hprobe, hrest]
    exact send_of_unreadable rfl
  · obtain ⟨e, hsend⟩ := Http.Client.send_of_not_accepts
      (r := x.post (.whole flushPacket)) haccepts rfl rfl hresponses hsuccess
    have hprobe := send_of_error hsend
    refine ⟨e, ?_⟩
    rw [postRequest, hgather]
    rcases hresult : send c (x.post (.whole flushPacket)) with ⟨result, c₁⟩
    rw [hresult] at hprobe
    obtain rfl : result = .error e := hprobe
    rfl

/-- A small request fails if it is not accepted or does not end with a flush packet. -/
theorem failed_of_small {probed : Http.Response} {later : List Http.Response}
    (hresponses : c.server.responses = probed :: later) (hsuccess : probed.isSuccess = true)
    (hsmall : ¬ x.IsLarge (first ++ (payloads s).flatten))
    (h : c.Accepts → (ending s).1 ≠ .ok (some .flush)) :
    Outcome.Failed (x.postRequest c first s) := by
  have hgather := gather_of_small (mt isLarge_iff.mpr hsmall)
  by_cases hflush : (ending s).1 = .ok (some .flush)
  · have haccepts : ¬ c.Accepts := fun haccepts => h haccepts hflush
    rw [hflush, collectedEnd] at hgather
    obtain ⟨e, hsend⟩ := Http.Client.send_of_not_accepts haccepts
      (auth_wholeRequest x _) (content_wholeRequest x (first ++ (payloads s).flatten)) hresponses
      hsuccess
    refine ⟨e, ?_⟩
    rw [postRequest, hgather]
    exact send_of_error hsend
  · obtain ⟨e, hfailed⟩ : ∃ e, collectedEnd (payloads s).flatten (ending s).1 = .failed e := by
      rcases hending : (ending s).1 with e | _ | _ | _ | _
      · exact ⟨_, rfl⟩
      · exact ⟨_, rfl⟩
      · exact absurd hending hflush
      · exact ⟨_, rfl⟩
      · exact ⟨_, rfl⟩
    rw [hfailed] at hgather
    refine ⟨.wire e, ?_⟩
    rw [postRequest, hgather]

/-- Any other request fails. -/
theorem failed_of_not_goes (hserver : Obliges c.server) (h : ¬ x.Goes c first s) :
    Outcome.Failed (x.postRequest c first s) := by
  obtain ⟨probed, later, hresponses⟩ : ∃ probed later, c.server.responses = probed :: later := by
    match hlist : c.server.responses, hserver.enough with
    | probed :: later, _ => exact ⟨probed, later, rfl⟩
  have hsuccess : probed.isSuccess = true :=
    hserver.success probed (by rw [hresponses]; exact List.mem_cons_self)
  by_cases hlarge : x.IsLarge (first ++ (payloads s).flatten)
  · exact failed_of_large hresponses hsuccess hlarge fun haccepts p hending =>
      h ⟨haccepts, p, hending, .inr hlarge⟩
  · exact failed_of_small hresponses hsuccess hlarge fun haccepts hflush =>
      h ⟨haccepts, .flush, hflush, .inl rfl⟩

/-! ### Pieces of any sizes -/

/-- What was collected and what is left take no more bytes than there were. -/
theorem length_of_gather {limit size : Nat} {start left : Bytes}
    (h : gather limit size s = (.start start, left)) : start.length + left.length ≤ s.length := by
  fun_induction gather limit size s generalizing start left with
  | case1 => cases h; simp
  | case2 | case3 | case4 | case5 => cases h
  | case6 size s hfull payload rest hread g rest' hrest ih =>
    have hless := Packet.length_payload_lt hread
    cases g with
    | start later =>
      cases h
      have hlater := ih hrest
      rw [List.length_append]
      omega
    | whole | failed => cases h

/-- The sizes of the pieces do not matter. -/
theorem eq_of_postRequestIn {sizes : List Nat} {out : Outcome}
    (h : x.postRequestIn sizes c first s = some out) : out = x.postRequest c first s := by
  rw [postRequestIn] at h
  rw [postRequest]
  rcases hgather : gather x.postBuffer first.length s with ⟨body | body | e, left⟩ <;>
    simp only [hgather] at h ⊢
  · exact (Option.some.inj h).symm
  · rcases hprobe : send c (x.post (.whole flushPacket)) with ⟨e | response, c'⟩ <;>
      simp only [hprobe] at h ⊢
    · exact (Option.some.inj h).symm
    · obtain ⟨drained, hdrain, rfl⟩ := Option.map_eq_some_iff.mp h
      obtain rfl := RequestStream.eq_content_of_drain hdrain
      simp only [RequestStream.content, RequestStream.later, Bool.false_eq_true, ite_false,
        List.append_nil, streamedRequest]
  · exact (Option.some.inj h).symm

/-- Pieces that are not empty are enough if there is one more of them than there are bytes. -/
theorem isSome_postRequestIn {sizes : List Nat} (hpos : ∀ n ∈ sizes, 0 < n)
    (henough : first.length + s.length < sizes.length) :
    (x.postRequestIn sizes c first s).isSome = true := by
  rw [postRequestIn]
  rcases hgather : gather x.postBuffer first.length s with ⟨body | body | e, left⟩
  · rfl
  · rcases hprobe : send c (x.post (.whole flushPacket)) with ⟨e | response, c'⟩
    · rfl
    · have hlength := length_of_gather hgather
      have hroom : RequestStream.room ⟨first ++ body, [], false⟩ left < sizes.length := by
        rw [RequestStream.room, List.length_append, List.length_nil]
        omega
      simp only [Option.isSome_map]
      exact RequestStream.isSome_drain hpos hroom
  · rfl

/-! ### Buffers of any size -/

/-- The same service with another buffer. -/
def withBuffer (x : Rpc) (size : Nat) : Rpc := { x with postBuffer := size }

/-- Both fail, or both send the same body and leave the same packets. -/
def SameOutcome (x : Rpc) (c : Http.Client) (a b : Outcome) : Prop :=
  (a.Failed ∧ b.Failed) ∨ ∃ body rest, a.Posted x c body rest ∧ b.Posted x c body rest

/-- Outcomes are the same if the request goes through under both buffers or under none. -/
theorem sameOutcome_iff (hserver : Obliges c.server) {p q : Nat} :
    x.SameOutcome c ((x.withBuffer p).postRequest c first s)
        ((x.withBuffer q).postRequest c first s) ↔
      ((x.withBuffer p).Goes c first s ↔ (x.withBuffer q).Goes c first s) := by
  have hposted (n : Nat) (h : (x.withBuffer n).Goes c first s) : Outcome.Posted x c
      (first ++ (payloads s).flatten) (ending s).2 ((x.withBuffer n).postRequest c first s) :=
    let ⟨htaken, hleft, hrequests⟩ := posted_of_goes hserver h
    ⟨htaken, hleft, hrequests⟩
  have hgoes (n : Nat) {body rest : Bytes} (h : Outcome.Posted x c body rest
      ((x.withBuffer n).postRequest c first s)) : (x.withBuffer n).Goes c first s := by
    by_contra hnot
    exact h.not_failed (failed_of_not_goes hserver hnot)
  constructor
  · rintro (⟨hp, hq⟩ | ⟨body, rest, hp, hq⟩)
    · exact iff_of_false (fun h => (hposted p h).not_failed hp) fun h => (hposted q h).not_failed hq
    · exact iff_of_true (hgoes p hp) (hgoes q hq)
  · intro h
    by_cases hp : (x.withBuffer p).Goes c first s
    · exact .inr ⟨_, _, hposted p hp, hposted q (h.mp hp)⟩
    · exact .inl ⟨failed_of_not_goes hserver hp, failed_of_not_goes hserver (mt h.mpr hp)⟩

/-- A request is the same under all sizes of the pieces it is streamed in. Under two sizes of the buffer
it is the same just if it is not interrupted on its way through one of them: an interrupted request
fails where it is collected, and is sent where it is streamed. -/
theorem buffering_shows_only_on_interruption (x : Rpc) (c : Http.Client) (first s : Bytes)
    (hserver : Obliges c.server) :
    (∀ sizes out, x.postRequestIn sizes c first s = some out → out = x.postRequest c first s) ∧
    (∀ sizes : List Nat, (∀ n ∈ sizes, 0 < n) → first.length + s.length < sizes.length →
      (x.postRequestIn sizes c first s).isSome = true) ∧
    (∀ p q, x.SameOutcome c ((x.withBuffer p).postRequest c first s)
        ((x.withBuffer q).postRequest c first s) ↔
      ¬ (c.Accepts ∧ Interrupted s ∧
        ¬ ((x.withBuffer p).IsLarge (first ++ (payloads s).flatten) ↔
          (x.withBuffer q).IsLarge (first ++ (payloads s).flatten)))) ∧
    (Interrupted s → (Outcome.Posted x c (first ++ (payloads s).flatten) (ending s).2
        (x.postRequest c first s) ↔ c.Accepts ∧ x.IsLarge (first ++ (payloads s).flatten))) := by
  refine ⟨fun _ _ => eq_of_postRequestIn, fun _ => isSome_postRequestIn, fun p q => ?_, ?_⟩
  · rw [sameOutcome_iff hserver, goes_iff, goes_iff]
    by_cases hinterrupted : Interrupted s
    · simp only [hinterrupted.not_flush, hinterrupted, false_or, true_and, not_and, not_not]
      exact and_congr_right_iff
    · simp only [hinterrupted, false_and, and_false, or_false, not_false_eq_true]
  · intro hinterrupted
    constructor
    · intro hposted
      obtain ⟨haccepts, hflush | ⟨-, hlarge⟩⟩ :=
        goes_iff.mp (not_not.mp fun hnot => hposted.not_failed (failed_of_not_goes hserver hnot))
      · exact absurd hflush hinterrupted.not_flush
      · exact ⟨haccepts, hlarge⟩
    · rintro ⟨haccepts, hlarge⟩
      exact posted_of_goes hserver (goes_iff.mpr ⟨haccepts, .inr ⟨hinterrupted, hlarge⟩⟩)

end Rpc

/-- A service that streams whatever it is given. -/
def streamingService : Rpc :=
  { service := "git-upload-pack", url := "http://h/r/", postBuffer := 0, gzipThreshold := 1024 }

/-- A client of a server that has two successful responses. -/
def clientOfTwo : Http.Client := { server := { responses := [⟨200, none, []⟩, ⟨200, none, []⟩] } }

theorem obliges_clientOfTwo : Rpc.Obliges clientOfTwo.server := ⟨by decide, by decide⟩

theorem accepts_clientOfTwo : clientOfTwo.Accepts := nofun

/-- The request that a control packet ends behind one payload. -/
def wantUpTo (p : ControlPacket) : Bytes :=
  Packet.frame (bytesOf "wan") ++ (p.encode ++ bytesOf "rest0000")

theorem read_wantUpTo (p : ControlPacket) :
    Packet.read (wantUpTo p) =
      (.ok (some (.data (bytesOf "wan"))), p.encode ++ bytesOf "rest0000") :=
  Packet.read_frame (by decide) _

theorem payloads_wantUpTo (p : ControlPacket) : payloads (wantUpTo p) = [bytesOf "wan"] := by
  rw [payloads_of_read (read_wantUpTo p),
    payloads_of_not_data (by rw [Packet.read_control]; nofun)]

theorem ending_wantUpTo (p : ControlPacket) :
    ending (wantUpTo p) = (.ok (some p), bytesOf "rest0000") := by
  rw [ending_of_read (read_wantUpTo p), ending]
  split <;> rename_i hread <;> rw [Packet.read_control] at hread <;> cases hread
  rfl

/-- A request with a flush packet at its end is the same under a buffer that cannot hold it and under
one that can, in pieces of three bytes and whole. -/
theorem buffering_shows_only_on_interruption_flush :
    Rpc.Obliges clientOfTwo.server ∧
    streamingService.SameOutcome clientOfTwo
      ((streamingService.withBuffer 0).postRequest clientOfTwo (bytesOf "data") (wantUpTo .flush))
      ((streamingService.withBuffer 1048576).postRequest clientOfTwo (bytesOf "data")
        (wantUpTo .flush)) ∧
    streamingService.postRequestIn (List.replicate 30 3) clientOfTwo (bytesOf "data")
      (wantUpTo .flush) =
        some (streamingService.postRequest clientOfTwo (bytesOf "data") (wantUpTo .flush)) := by
  obtain ⟨hpieces, henough, hbuffers, -⟩ := Rpc.buffering_shows_only_on_interruption
    streamingService clientOfTwo (bytesOf "data") (wantUpTo .flush) obliges_clientOfTwo
  refine ⟨obliges_clientOfTwo, (hbuffers 0 1048576).mpr ?_, ?_⟩
  · rintro ⟨-, hinterrupted, -⟩
    refine hinterrupted.not_flush ?_
    rw [ending_wantUpTo]
  · obtain ⟨out, hout⟩ := Option.isSome_iff_exists.mp
      (henough (List.replicate 30 3) (by decide) (by decide))
    rw [hout, hpieces _ _ hout]

/-- A request that a delimiter packet interrupts fails where it is collected, and is sent cut short
where it is streamed. -/
theorem interrupted_request_is_sent_cut_short :
    Rpc.Outcome.Posted streamingService clientOfTwo (bytesOf "datawan") (bytesOf "rest0000")
      (streamingService.postRequest clientOfTwo (bytesOf "data") (wantUpTo .delimiter)) ∧
    Rpc.Outcome.Failed ((streamingService.withBuffer 1048576).postRequest clientOfTwo
      (bytesOf "data") (wantUpTo .delimiter)) ∧
    ¬ streamingService.SameOutcome clientOfTwo
      ((streamingService.withBuffer 0).postRequest clientOfTwo (bytesOf "data") (wantUpTo .delimiter))
      ((streamingService.withBuffer 1048576).postRequest clientOfTwo (bytesOf "data")
        (wantUpTo .delimiter)) := by
  have hpayloads : bytesOf "data" ++ (payloads (wantUpTo .delimiter)).flatten = bytesOf "datawan" := by
    rw [payloads_wantUpTo]
    decide
  have hending := ending_wantUpTo .delimiter
  have hgoes : streamingService.Goes clientOfTwo (bytesOf "data") (wantUpTo .delimiter) :=
    ⟨accepts_clientOfTwo, .delimiter, by rw [hending], .inr (by rw [hpayloads]; decide)⟩
  have hposted := Rpc.posted_of_goes obliges_clientOfTwo hgoes
  rw [hpayloads, hending] at hposted
  have hfailed : Rpc.Outcome.Failed ((streamingService.withBuffer 1048576).postRequest clientOfTwo
      (bytesOf "data") (wantUpTo .delimiter)) := by
    refine Rpc.failed_of_not_goes obliges_clientOfTwo ?_
    rintro ⟨-, p, hp, hend⟩
    rw [hending] at hp
    cases hp
    rw [hpayloads] at hend
    revert hend
    decide
  refine ⟨hposted, hfailed, ?_⟩
  rintro (⟨hnone, -⟩ | ⟨body, rest, -, hsent⟩)
  · exact hposted.not_failed hnone
  · exact hsent.not_failed hfailed

end GitRemote
