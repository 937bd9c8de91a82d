import GitRemote.Process.Child
import GitRemote.Remote.Rpc

/-!
# Stateless exchanges

A child that fetches or pushes is run as if it were connected to the server: it is given the
advertisement, each request it writes is sent, and the response becomes further input. An empty
request ends the exchange, and what the child writes after it is the result.
-/

namespace GitRemote

/-- What an effect adds to an earlier one that it continues. -/
def Effect.beyond : Effect → Effect → Effect
  | .output a, .output b => .output (b.drop a.length)
  | .errorOutput a, .errorOutput b => .errorOutput (b.drop a.length)
  | .append _ a, .append path b => .append path (b.drop a.length)
  | _, e => e

/-- The effects that come after some which were seen already. -/
def newEffects : List Effect → List Effect → List Effect
  | [], later => later
  | _ :: _, [] => []
  | e :: seen, e' :: later => if e = e' then newEffects seen later else e.beyond e' :: later

/-- An exchange under way. -/
structure Exchange where
  child : Child
  client : Http.Client
  /-- The effects of the child that have happened. -/
  seen : List Effect := []
  /-- How much of the child's output was read. -/
  taken : Nat := 0

namespace Exchange

/-- Lets the child go on as far as its input allows. -/
def advance (x : Exchange) : Exchange :=
  let effects := x.child.soFar.effects
  let host := x.client.host.apply (newEffects x.seen effects)
  { x with client := { x.client with host }, seen := effects }

/-- The output of the child that was not read yet. -/
def unread (x : Exchange) : Bytes := (outputOf x.seen).drop x.taken

/-- The exchange after all output was read but for `rest`. -/
def readTo (x : Exchange) (rest : Bytes) : Exchange :=
  { x with taken := (outputOf x.seen).length - rest.length }

/-- Tells the child that there is no more input, and lets it come to its end. -/
def close (x : Exchange) : Exchange := { x with child := x.child.close }.advance

/-- Gives a response to the child. -/
def give (x : Exchange) (body : Bytes) : Except WireError Unit × Exchange :=
  let (r, child) := x.child.write x.taken body
  (r, { x with child })

/-- The end of an exchange: the result is the rest of the output, if the child ends well. -/
def finish (x : Exchange) : Except RemoteError Bytes × Exchange :=
  let x := x.close
  match x.child.verdict with
  | .error e => (.error (.wire e), x)
  | .ok () => (.ok x.unread, x)

/-- Sends requests until the child ends the exchange. Each takes a response, so `fuel` need not exceed
their number. A child that has not written all of a packet on the input it was given is taken to have
closed its output there, whether it has ended or waits for more. -/
def relay (rpc : Rpc) : Nat → Exchange → Except RemoteError Bytes × Exchange
  | 0, x => x.advance.finish
  | fuel + 1, x =>
    let x := x.advance
    match Packet.read x.unread with
    | (.error e, rest) => (.error (.wire e), (x.readTo rest).close)
    | (.ok (some (.data first)), rest) =>
      match rpc.postRequest x.client first rest with
      | (.error e, rest, client) => (.error e, ({ x with client }.readTo rest).close)
      | (.ok response, rest, client) =>
        match ({ x with client }.readTo rest).give response.body with
        | (.error .stalled, x) => (.error (.wire .stalled), x)
        | (.error _, x) => (.error (.io brokenPipe), x.close)
        | (.ok (), x) => relay rpc fuel x
    | (.ok _, rest) => (x.readTo rest).finish

end Exchange

namespace Rpc

/-- Runs a command as the child of an exchange, with a preamble and the advertisement as its first
input. -/
def run (rpc : Rpc) (c : Http.Client) (command : Command) (preamble advertisement : Bytes) :
    Except RemoteError Bytes × Http.Client :=
  match c.host.start command with
  | .error e => (.error (.wire e), c)
  | .ok program =>
    let child : Child := ⟨command, program, { closed := false }⟩
    match child.write 0 (preamble ++ advertisement) with
    | (.error e, child) => (.error (.wire e), { child, client := c : Exchange }.close.client)
    | (.ok (), child) =>
      let (r, x) := Exchange.relay rpc (c.server.responses.length + 1) { child, client := c }
      (r, x.client)

end Rpc

end GitRemote
