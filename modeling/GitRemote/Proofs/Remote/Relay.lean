import GitRemote.Proofs.Remote.Request
import GitRemote.Remote.Exchange
import Mathlib.Data.List.Basic

/-!
# Exchanges that come to their end

A child that writes request after request, then a flush packet and a result, has every request sent as
one body, gets every response as input, and its result is the result of the exchange. What one turn
does is said once; the whole exchange follows by induction over the turns.
-/

namespace GitRemote

/-- A program that takes part in an exchange: what it writes with all of its input are the requests of
the turns, a flush packet and a result, and it ends well. It writes a request as soon as it has the
responses to those before it, and it takes what it is given when only its requests so far were read. -/
structure Program.Converses (p : Program) (start tail : Bytes) (turns : List Turn) : Prop where
  output : outputOf (p ⟨start ++ turns.flatMap (·.answer.body), true⟩).effects =
    turns.flatMap Turn.request ++ flushPacket ++ tail
  succeeds : (p ⟨start ++ turns.flatMap (·.answer.body), true⟩).ending.failure? = none
  asks : ∀ front t back, turns = front ++ t :: back →
    front.flatMap Turn.request ++ t.request <+:
      outputOf (p ⟨start ++ front.flatMap (·.answer.body), false⟩).effects
  ends : turns.flatMap Turn.request ++ flushPacket <+:
    outputOf (p ⟨start ++ turns.flatMap (·.answer.body), false⟩).effects
  takes : ∀ front back, turns = front ++ back →
    p.Takes (front.flatMap Turn.request).length (start ++ front.flatMap (·.answer.body))

namespace Program

variable {p : Program} {start tail : Bytes} {t : Turn}

/-- A program that writes no more than a pipe holds does not come to stand. -/
theorem stalls_eq_false_of_output {taken : Nat} {input : Bytes}
    (h : ∀ early, (outputOf (p ⟨early, false⟩).effects).length ≤ taken + pipeCapacity) :
    p.stalls taken input = false := by
  rw [stalls, Bool.and_eq_false_iff]
  exact .inr (decide_eq_false (Nat.not_lt_of_le (h _)))

/-- A program that is given no more than a pipe holds does not come to stand. -/
theorem stalls_eq_false_of_input {taken : Nat} {input : Bytes} (h : input.length ≤ pipeCapacity) :
    p.stalls taken input = false := by
  rw [stalls, Bool.and_eq_false_iff]
  exact .inl (decide_eq_false (Nat.not_lt_of_le h))

/-- A program that asks for nothing. -/
theorem converses_nil (htakes : p.Takes 0 start)
    (hends : flushPacket <+: outputOf (p ⟨start, false⟩).effects)
    (houtput : outputOf (p ⟨start, true⟩).effects = flushPacket ++ tail)
    (hsucceeds : (p ⟨start, true⟩).ending.failure? = none) : p.Converses start tail [] where
  output := by simpa using houtput
  succeeds := by simpa using hsucceeds
  asks front t back hturns := by simp at hturns
  ends := by simpa using hends
  takes front back hturns := by
    obtain ⟨rfl, rfl⟩ := List.append_eq_nil_iff.mp hturns.symm
    simpa using htakes

/-- A program that makes one request. -/
theorem converses_singleton (hasks : t.request <+: outputOf (p ⟨start, false⟩).effects)
    (hstart : p.Takes 0 start) (hanswer : p.Takes t.request.length (start ++ t.answer.body))
    (hends : t.request ++ flushPacket <+: outputOf (p ⟨start ++ t.answer.body, false⟩).effects)
    (houtput : outputOf (p ⟨start ++ t.answer.body, true⟩).effects =
      t.request ++ flushPacket ++ tail)
    (hsucceeds : (p ⟨start ++ t.answer.body, true⟩).ending.failure? = none) :
    p.Converses start tail [t] where
  output := by simpa using houtput
  succeeds := by simpa using hsucceeds
  asks front u back hturns := by
    cases front with
    | nil =>
      obtain ⟨rfl, -⟩ := List.cons.inj hturns
      simpa using hasks
    | cons v front => simp at hturns
  ends := by simpa using hends
  takes front back hturns := by
    cases front with
    | nil => simpa using hstart
    | cons v front =>
      rw [List.cons_append] at hturns
      obtain ⟨rfl, hnil⟩ := List.cons.inj hturns
      obtain ⟨rfl, rfl⟩ := List.append_eq_nil_iff.mp hnil.symm
      simpa using hanswer

end Program

namespace Child

variable {c : Child} {taken : Nat} {input data : Bytes}

/-- A program is given more input if it takes it. -/
theorem write_of_takes (h : c.input = ⟨input, false⟩) (htakes : c.program.Takes taken (input ++ data)) :
    c.write taken data = (.ok (), { c with input := ⟨input ++ data, false⟩ }) := by
  obtain ⟨hstalls, hbroken⟩ := htakes
  rw [write, h]
  simp only [Bool.false_eq_true, ite_false, hstalls, soFar, hbroken]

/-- A program that ends early breaks the pipe of its input. -/
theorem write_of_broken (h : c.input = ⟨input, false⟩)
    (hstalls : c.program.stalls taken (input ++ data) = false)
    (hbroken : (c.program ⟨input ++ data, false⟩).isBroken = true) :
    c.write taken data = (.error (.io brokenPipe), { c with input := ⟨input ++ data, false⟩ }) := by
  rw [write, h]
  simp only [Bool.false_eq_true, ite_false, hstalls, soFar, hbroken, ite_true]

/-- A program that comes to stand is waited for without end. -/
theorem write_of_stalls (h : c.input = ⟨input, false⟩)
    (hstalls : c.program.stalls taken (input ++ data) = true) :
    c.write taken data = (.error .stalled, { c with input := ⟨input ++ data, false⟩ }) := by
  rw [write, h]
  simp only [Bool.false_eq_true, ite_false, hstalls, ite_true]

end Child

namespace Exchange

variable {rpc : Rpc} {x : Exchange} {input written tail : Bytes}

/-- A child that goes on does not touch the credential of the client. -/
theorem continues_advance (x : Exchange) : x.client.Continues x.advance.client :=
  ⟨rfl, rfl, rfl, id⟩

theorem server_advance (x : Exchange) : x.advance.client.server = x.client.server := rfl

/-- Once a child went on, all that it wrote can be read, but for what was read already. -/
theorem unread_advance (x : Exchange) :
    x.advance.unread = (outputOf x.child.soFar.effects).drop x.taken := rfl

/-- Behind what was read already stands what the child wrote since. -/
theorem unread_advance_of_prefix {message : Bytes} (htaken : x.taken = written.length)
    (h : written ++ message <+: outputOf x.child.soFar.effects) :
    ∃ rest, x.advance.unread = message ++ rest ∧
      outputOf x.advance.seen = written ++ message ++ rest := by
  obtain ⟨rest, hrest⟩ := h
  refine ⟨rest, ?_, hrest.symm⟩
  rw [unread_advance, ← hrest, htaken, List.append_assoc, List.drop_left]

/-- Reading up to a rest leaves what stood before it as read. -/
theorem taken_readTo {front rest : Bytes} (h : outputOf x.seen = front ++ rest) :
    (x.readTo rest).taken = front.length := by
  rw [readTo, h, List.length_append, Nat.add_sub_cancel]

theorem give_eq {body : Bytes} {r : Except WireError Unit} {child : Child}
    (h : x.child.write x.taken body = (r, child)) : x.give body = (r, { x with child }) := by
  rw [give, h]

/-- How a turn goes: the request is sent, and its response is given to the child, which takes it, ends
early or comes to stand. Only in the first case the exchange goes on. -/
theorem relay_asks (fuel : Nat) {t : Turn} {later : List Http.Response}
    (hinput : x.child.input = ⟨input, false⟩) (htaken : x.taken = written.length)
    (hasks : written ++ t.request <+: outputOf (x.child.program ⟨input, false⟩).effects)
    (hsettles : x.client.Settles) (hserver : x.client.server.responses = t.answers rpc ++ later) :
    ∃ y : Exchange, y.taken = (written ++ t.request).length ∧ x.client.Continues y.client ∧
      y.client.server =
        ⟨later, x.client.server.requests ++ rpc.postsOf x.client.auth? t.body⟩ ∧
      (∀ child, x.child.write (written ++ t.request).length t.answer.body = (.ok (), child) →
        relay rpc (fuel + 1) x = relay rpc fuel { y with child }) ∧
      (∀ child, x.child.write (written ++ t.request).length t.answer.body =
          (.error (.io brokenPipe), child) →
        relay rpc (fuel + 1) x = (.error (.io brokenPipe), { y with child : Exchange }.close)) ∧
      ∀ child, x.child.write (written ++ t.request).length t.answer.body =
          (.error .stalled, child) →
        relay rpc (fuel + 1) x = (.error (.wire .stalled), { y with child }) := by
  rw [← hinput] at hasks
  obtain ⟨rest, hunread, hseen⟩ := unread_advance_of_prefix htaken hasks
  have hread : Packet.read x.advance.unread =
      (.ok (some (.data t.first)), requestOf t.more ++ rest) := by
    rw [hunread, Turn.request, requestOf_cons, List.append_assoc]
    exact Packet.read_frame (t.length_le _ (List.mem_cons_self ..)) _
  obtain ⟨client, hpost, hcontinues, hanswered⟩ :=
    Rpc.postRequest_eq ((continues_advance x).settles hsettles)
      ((congrArg _ (server_advance x)).trans hserver) rest
  have hread' := taken_readTo (x := { x.advance with client : Exchange }) hseen
  refine ⟨{ x.advance with client : Exchange }.readTo rest, hread',
    (continues_advance x).trans hcontinues, hanswered, fun child hwrite => ?_,
    fun child hwrite => ?_, fun child hwrite => ?_⟩
  all_goals
    rw [← hread'] at hwrite
    have hgive := give_eq (x := { x.advance with client : Exchange }.readTo rest) hwrite
    rw [relay]
    simp only [hread, hpost, hgive]

/-- What a turn does if the child takes its response. -/
theorem relay_turn (fuel : Nat) {t : Turn} {later : List Http.Response}
    (hinput : x.child.input = ⟨input, false⟩) (htaken : x.taken = written.length)
    (hasks : written ++ t.request <+: outputOf (x.child.program ⟨input, false⟩).effects)
    (htakes : x.child.program.Takes (written ++ t.request).length (input ++ t.answer.body))
    (hsettles : x.client.Settles) (hserver : x.client.server.responses = t.answers rpc ++ later) :
    ∃ x', relay rpc (fuel + 1) x = relay rpc fuel x' ∧
      x'.child = { x.child with input := ⟨input ++ t.answer.body, false⟩ } ∧
      x'.taken = (written ++ t.request).length ∧ x.client.Continues x'.client ∧
      x'.client.server = ⟨later, x.client.server.requests ++ rpc.postsOf x.client.auth? t.body⟩ := by
  obtain ⟨y, hread, hcontinues, hanswered, hgoes, -, -⟩ :=
    relay_asks fuel hinput htaken hasks hsettles hserver
  exact ⟨_, hgoes _ (Child.write_of_takes hinput htakes), rfl, hread, hcontinues, hanswered⟩

/-- A child that ends before it has read all of a response breaks the exchange off. -/
theorem relay_broken (fuel : Nat) {t : Turn} {later : List Http.Response}
    (hinput : x.child.input = ⟨input, false⟩) (htaken : x.taken = written.length)
    (hasks : written ++ t.request <+: outputOf (x.child.program ⟨input, false⟩).effects)
    (hstalls : x.child.program.stalls (written ++ t.request).length (input ++ t.answer.body) = false)
    (hbroken : (x.child.program ⟨input ++ t.answer.body, false⟩).isBroken = true)
    (hsettles : x.client.Settles) (hserver : x.client.server.responses = t.answers rpc ++ later) :
    (relay rpc (fuel + 1) x).1 = .error (.io brokenPipe) := by
  obtain ⟨y, -, -, -, -, hbreaks, -⟩ := relay_asks fuel hinput htaken hasks hsettles hserver
  rw [hbreaks _ (Child.write_of_broken hinput hstalls hbroken)]

/-- An exchange with a child that comes to stand has no end. -/
theorem relay_stalled (fuel : Nat) {t : Turn} {later : List Http.Response}
    (hinput : x.child.input = ⟨input, false⟩) (htaken : x.taken = written.length)
    (hasks : written ++ t.request <+: outputOf (x.child.program ⟨input, false⟩).effects)
    (hstalls : x.child.program.stalls (written ++ t.request).length (input ++ t.answer.body) = true)
    (hsettles : x.client.Settles) (hserver : x.client.server.responses = t.answers rpc ++ later) :
    (relay rpc (fuel + 1) x).1 = .error (.wire .stalled) := by
  obtain ⟨y, -, -, -, -, -, hstands⟩ := relay_asks fuel hinput htaken hasks hsettles hserver
  rw [hstands _ (Child.write_of_stalls hinput hstalls)]

theorem unread_close (x : Exchange) : x.close.unread =
    (outputOf (x.child.program { x.child.input with closed := true }).effects).drop x.taken := rfl

/-- A child that ends well leaves what it wrote since as the result. -/
theorem finish_eq
    (h : (x.child.program { x.child.input with closed := true }).ending.failure? = none) :
    x.finish = (.ok x.close.unread, x.close) := by
  have hverdict : x.close.child.verdict = .ok () := by
    show Host.verdict x.child.command
      (x.child.program { x.child.input with closed := true }).ending = .ok ()
    rw [Host.verdict, h]
  rw [finish]
  simp only [hverdict]

/-- How an exchange ends: the child is told that there is no more input, and what it wrote behind the
flush packet is the result. -/
theorem relay_end (fuel : Nat) (hinput : x.child.input = ⟨input, false⟩) (htaken : x.taken = written.length)
    (hends : written ++ flushPacket <+: outputOf (x.child.program ⟨input, false⟩).effects)
    (houtput : outputOf (x.child.program ⟨input, true⟩).effects = written ++ flushPacket ++ tail)
    (hsucceeds : (x.child.program ⟨input, true⟩).ending.failure? = none) :
    ∃ x', relay rpc (fuel + 1) x = (.ok tail, x') ∧ x'.child.input = ⟨input, true⟩ ∧
      x'.client.server = x.client.server := by
  have hclosed : { x.child.input with closed := true } = (⟨input, true⟩ : ProgramInput) := by
    rw [hinput]
  rw [← hinput] at hends
  obtain ⟨rest, hunread, hseen⟩ := unread_advance_of_prefix htaken hends
  have hread : Packet.read x.advance.unread = (.ok (some (.control .flush)), rest) := by
    rw [hunread]
    exact Packet.read_flush rest
  have hresult : (x.advance.readTo rest).close.unread = tail := by
    rw [unread_close, taken_readTo hseen]
    show (outputOf (x.child.program { x.child.input with closed := true }).effects).drop _ = tail
    rw [hclosed, houtput, List.drop_left]
  refine ⟨(x.advance.readTo rest).close, ?_, hclosed, rfl⟩
  rw [relay]
  simp only [hread]
  rw [finish_eq, hresult]
  show (x.child.program { x.child.input with closed := true }).ending.failure? = none
  rw [hclosed, hsucceeds]

/-- What is left of an exchange after some of its turns. -/
theorem relay_eq {fuel : Nat} {start : Bytes} {front back turns : List Turn} {later : List Http.Response}
    (hturns : turns = front ++ back) (hchild : x.child.program.Converses start tail turns)
    (hinput : x.child.input = ⟨start ++ front.flatMap (·.answer.body), false⟩)
    (htaken : x.taken = (front.flatMap Turn.request).length) (hsettles : x.client.Settles)
    (hserver : x.client.server.responses = back.flatMap (Turn.answers rpc) ++ later)
    (hfuel : back.length < fuel) :
    ∃ x', relay rpc fuel x = (.ok tail, x') ∧
      x'.child.input = ⟨start ++ turns.flatMap (·.answer.body), true⟩ ∧
      x'.client.server = ⟨later,
        x.client.server.requests ++ back.flatMap (rpc.postsOf x.client.auth? ·.body)⟩ := by
  obtain ⟨fuel, rfl⟩ : ∃ n, fuel = n + 1 := ⟨fuel - 1, by omega⟩
  induction back generalizing x front fuel with
  | nil =>
    obtain rfl : turns = front := by rw [hturns, List.append_nil]
    obtain ⟨x', hrelay, hclosed, hsame⟩ :=
      relay_end fuel hinput htaken hchild.ends hchild.output hchild.succeeds
    refine ⟨x', hrelay, hclosed, ?_⟩
    rw [hsame, List.flatMap_nil, List.append_nil, ← List.nil_append later, ← List.flatMap_nil,
      ← hserver]
  | cons t back ih =>
    rw [List.length_cons] at hfuel
    obtain ⟨fuel, rfl⟩ : ∃ n, fuel = n + 1 := ⟨fuel - 1, by omega⟩
    have hturns' : turns = (front ++ [t]) ++ back := by
      rw [hturns, List.append_assoc, List.singleton_append]
    have hbodies : start ++ (front ++ [t]).flatMap (·.answer.body) =
        start ++ front.flatMap (·.answer.body) ++ t.answer.body := by
      rw [List.flatMap_append, List.flatMap_singleton, List.append_assoc]
    have htakes := hchild.takes (front ++ [t]) back hturns'
    rw [hbodies, List.flatMap_append, List.flatMap_singleton] at htakes
    rw [List.flatMap_cons, List.append_assoc] at hserver
    obtain ⟨y, hrelay, hy, hread, hcontinues, hposted⟩ :=
      relay_turn (fuel + 1) hinput htaken (hchild.asks front t back hturns) htakes hsettles hserver
    obtain ⟨x', hrest, hclosed, hserved⟩ := ih hturns'
      (by rw [hy]; exact hchild) (by rw [hy, hbodies])
      (by rw [hread, List.flatMap_append, List.flatMap_singleton]) (hcontinues.settles hsettles)
      (by rw [hposted]) fuel (by omega)
    refine ⟨x', hrelay.trans hrest, hclosed, ?_⟩
    rw [hserved, hposted, hcontinues.auth?_eq, List.flatMap_cons, List.append_assoc]

end Exchange

namespace Rpc

variable {rpc : Rpc} {c : Http.Client} {command : Command} {program : Program}
variable {preamble advertisement tail : Bytes} {turns : List Turn} {later : List Http.Response}

/-- The exchange that a command starts with. -/
def opening (c : Http.Client) (command : Command) (program : Program) (input : Bytes) : Exchange :=
  { child := ⟨command, program, input, false⟩, client := c }

/-- A command that takes its first input is run as the child of an exchange. -/
theorem run_eq_relay (hstart : c.host.start command = .ok program)
    (htakes : program.Takes 0 (preamble ++ advertisement)) :
    rpc.run c command preamble advertisement =
      (Exchange.relay rpc (c.server.responses.length + 1)
        (opening c command program (preamble ++ advertisement))).map id Exchange.client := by
  have hwrite : (Child.mk command program { closed := false }).write 0 (preamble ++ advertisement) =
      (.ok (), ⟨command, program, preamble ++ advertisement, false⟩) := by
    have hempty : (Child.mk command program { closed := false }).input = ⟨[], false⟩ := rfl
    exact Child.write_of_takes hempty htakes
  rw [run, hstart]
  simp only [hwrite]
  rfl

section

variable {t : Turn} (hstart : c.host.start command = .ok program)
variable (htakes : program.Takes 0 (preamble ++ advertisement))
variable (hasks : t.request <+: outputOf (program ⟨preamble ++ advertisement, false⟩).effects)
variable (hsettles : c.Settles) (hserver : c.server.responses = t.answers rpc ++ later)
include hstart htakes hasks hsettles hserver

/-- A child that ends before it has read all of the first response breaks the whole exchange off. -/
theorem run_broken
    (hstalls : program.stalls t.request.length (preamble ++ advertisement ++ t.answer.body) = false)
    (hbroken : (program ⟨preamble ++ advertisement ++ t.answer.body, false⟩).isBroken = true) :
    (rpc.run c command preamble advertisement).1 = .error (.io brokenPipe) := by
  have hrelay : (Exchange.relay rpc (c.server.responses.length + 1)
      (opening c command program (preamble ++ advertisement))).1 = .error (.io brokenPipe) :=
    Exchange.relay_broken _ rfl (Eq.refl ([] : Bytes).length) hasks hstalls hbroken hsettles hserver
  rw [run_eq_relay hstart htakes]
  exact hrelay

/-- If the child comes to stand over the first response, the whole exchange has no end. -/
theorem run_stalled
    (hstalls : program.stalls t.request.length (preamble ++ advertisement ++ t.answer.body) = true) :
    (rpc.run c command preamble advertisement).1 = .error (.wire .stalled) := by
  have hrelay : (Exchange.relay rpc (c.server.responses.length + 1)
      (opening c command program (preamble ++ advertisement))).1 = .error (.wire .stalled) :=
    Exchange.relay_stalled _ rfl (Eq.refl ([] : Bytes).length) hasks hstalls hsettles hserver
  rw [run_eq_relay hstart htakes]
  exact hrelay

end

/-- A turn takes at least one response. -/
theorem length_le_length_answers (rpc : Rpc) (turns : List Turn) :
    turns.length ≤ (turns.flatMap (Turn.answers rpc)).length := by
  induction turns with
  | nil => exact Nat.le_refl _
  | cons t turns ih =>
    have hone : 1 ≤ (t.answers rpc).length := by
      rw [Turn.answers, answersTo]
      split <;> simp
    rw [List.flatMap_cons, List.length_append, List.length_cons]
    omega

/-- The whole of an exchange. -/
theorem relay_opening (command : Command) {input : Bytes}
    (hchild : program.Converses input tail turns) (hsettles : c.Settles)
    (hserver : c.server.responses = turns.flatMap (Turn.answers rpc) ++ later) :
    ∃ x, Exchange.relay rpc (c.server.responses.length + 1) (opening c command program input) =
        (.ok tail, x) ∧
      x.child.input = ⟨input ++ turns.flatMap (·.answer.body), true⟩ ∧
      x.client.server = ⟨later, c.server.requests ++ turns.flatMap (rpc.postsOf c.auth? ·.body)⟩ := by
  have hfuel : turns.length < c.server.responses.length + 1 := by
    have hturns := length_le_length_answers rpc turns
    rw [hserver, List.length_append]
    omega
  have hinput : (opening c command program input).child.input =
      ⟨input ++ ([] : List Turn).flatMap (·.answer.body), false⟩ := by
    rw [List.flatMap_nil, List.append_nil]
    rfl
  exact Exchange.relay_eq (List.nil_append turns).symm hchild hinput rfl hsettles hserver hfuel

/-- A program that converses has taken its first input. -/
theorem takes_first (hchild : program.Converses (preamble ++ advertisement) tail turns) :
    program.Takes 0 (preamble ++ advertisement) := by
  have hfirst := hchild.takes [] turns rfl
  rwa [List.flatMap_nil, List.flatMap_nil, List.append_nil] at hfirst

/-- What a run is good for if its child converses. -/
theorem run_of_converses (hstart : c.host.start command = .ok program)
    (hchild : program.Converses (preamble ++ advertisement) tail turns) (hsettles : c.Settles)
    (hserver : c.server.responses = turns.flatMap (Turn.answers rpc) ++ later) :
    ∃ client, rpc.run c command preamble advertisement = (.ok tail, client) ∧
      client.server = ⟨later, c.server.requests ++ turns.flatMap (rpc.postsOf c.auth? ·.body)⟩ := by
  obtain ⟨x, hrelay, -, hserved⟩ := relay_opening command hchild hsettles hserver
  refine ⟨x.client, ?_, hserved⟩
  rw [run_eq_relay hstart (takes_first hchild), hrelay]
  rfl

end Rpc

/-- A turn of some packets, with an answer of some length. -/
def plainTurn (first : Bytes) (more : List Bytes)
    (h : ∀ payload ∈ first :: more, payload.length ≤ payloadLimit) (n : Nat) : Turn where
  first := first
  more := more
  probed := ⟨200, none, []⟩
  answer := ⟨200, none, List.replicate n 0x61⟩
  length_le := h
  probed_isSuccess := rfl
  answer_isSuccess := rfl

/-- Requests that are compressed if they have two bytes, and streamed if they have four. -/
def narrowRpc : Rpc where
  service := "git-upload-pack"
  url := "http://h/r/"
  postBuffer := packetLimit + 3
  gzip := true
  gzipThreshold := 1

/-- A client whose host runs a program for every command, and whose server answers some turns. -/
def clientFor (p : Program) (turns : List Turn) : Http.Client where
  server := { responses := turns.flatMap (Turn.answers narrowRpc) }
  host := { load := fun _ _ => some p }

theorem settles_clientFor (p : Program) (turns : List Turn) : (clientFor p turns).Settles :=
  fun hcomplete => by cases hcomplete

/-- A program that writes some output at once, reads all of its input, and then writes a result. -/
def Program.attentive (output tail : Bytes) : Program := fun i =>
  { effects := .output output :: if i.closed then [.output tail] else []
    ending := if i.closed then .exited 0 else .waiting }

/-- An attentive program takes part in an exchange if its requests fit the pipe of its output. -/
theorem Program.converses_attentive {start tail : Bytes} {turns : List Turn}
    (h : (turns.flatMap Turn.request ++ flushPacket).length ≤ pipeCapacity) :
    (attentive (turns.flatMap Turn.request ++ flushPacket) tail).Converses start tail turns := by
  have houtput (given : Bytes) : outputOf (attentive (turns.flatMap Turn.request ++ flushPacket) tail
      ⟨given, false⟩).effects = turns.flatMap Turn.request ++ flushPacket := List.append_nil _
  constructor
  case output => exact congrArg (_ ++ ·) (List.append_nil tail)
  case succeeds => rfl
  case asks =>
    intro front t back hturns
    rw [houtput, hturns]
    exact ⟨back.flatMap Turn.request ++ flushPacket, by simp⟩
  case ends => exact ⟨[], (List.append_nil _).trans (houtput _).symm⟩
  case takes =>
    intro front back hturns
    refine ⟨stalls_eq_false_of_output fun early => ?_, rfl⟩
    rw [houtput]
    omega

/-- An exchange with a streamed request and a compressed one. -/
def twoTurns : List Turn :=
  [plainTurn (bytesOf "abcd") [] (by decide) 3, plainTurn (bytesOf "ab") [] (by decide) 2]

/-- The program that makes both requests at once and waits for the responses. -/
def twoTurnsChild : Program :=
  .attentive (twoTurns.flatMap Turn.request ++ flushPacket) (bytesOf "done")

/-- A program that writes some output and exits without reading anything. -/
def Program.hasty (output : Bytes) : Program := fun i =>
  { effects := [.output output], ending := .exited 0, unread := i.data.length }

theorem Program.outputOf_hasty (output : Bytes) (i : ProgramInput) :
    outputOf (hasty output i).effects = output := List.append_nil output

/-- Such a program takes nothing. -/
theorem Program.isBroken_hasty (output : Bytes) {i : ProgramInput} (h : 0 < i.data.length) :
    (hasty output i).isBroken = true := by
  rw [ProgramRun.isBroken, Bool.and_eq_true]
  exact ⟨rfl, decide_eq_true h⟩

/-- One request with a long response. -/
def longTurn : Turn := plainTurn (bytesOf "ab") [] (by decide) 200000

/-- A program that makes the request and writes a short result, all without reading. -/
def hastyChild : Program := .hasty (longTurn.request ++ flushPacket ++ bytesOf "done")

/-- A program that makes the request and writes a long result before it reads. -/
def wordyChild : Program :=
  .attentive (longTurn.request ++ flushPacket ++ List.replicate 100000 0x62) (bytesOf "done")

end GitRemote
