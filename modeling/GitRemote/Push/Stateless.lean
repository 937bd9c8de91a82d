import GitRemote.Process.Program
import GitRemote.Push.Matching
import GitRemote.Push.Report
import GitRemote.Push.Send

/-!
# Pushes without a connection

The child side of a push over a transport that keeps no state. The input is the advertisement and then
the server's responses; the output is the requests, an empty request that ends the exchange and, if
asked for, a status line for each ref.
-/

namespace GitRemote

/-- What a stateless push is to do. -/
structure StatelessPush where
  specs : List String
  /-- End with status lines. -/
  helperStatus : Bool := false
  args : PushArgs := {}
  deriving DecidableEq, Repr

/-- What came of a stateless push. -/
structure StatelessRun where
  result : Except RemoteError PushOutcome
  /-- The refs with their statuses, once they are known. -/
  refs : List Ref := []
  written : Bytes := []
  /-- What the builder of packs was asked for. -/
  request : Option PackRequest := none
  /-- The input that was not read. -/
  input : Bytes

namespace StatelessPush

/-- What is written behind the requests: an empty request, and the status lines. -/
def ending (p : StatelessPush) (refs : List Ref) : Bytes :=
  flushPacket ++ if p.helperStatus then Utf8.encode (statusText refs) else []

/-- Pushes refs that were matched. -/
def send (p : StatelessPush) (repo : LocalRepository) (produce : PackProducer)
    (server : Advertisement) (refs : List Ref) (input : Bytes) : StatelessRun :=
  let run := sendPush input server refs { p.args with stateless := true } repo.source produce
  { result := liftWire run.result
    refs := run.refs
    written := run.written ++ (if run.result.isOk then p.ending run.refs else [])
    request := run.request
    input := run.input }

/-- Carries a push out. -/
def run (p : StatelessPush) (repo : LocalRepository) (produce : PackProducer) (input : Bytes) :
    StatelessRun :=
  match p.specs.mapM Refspec.parse with
  | .error e => { result := .error e, input }
  | .ok specs =>
    match Advertisement.read input with
    | (.error e, input) => { result := .error (.wire e), input }
    | (.ok server, input) =>
      match repo.matchPush server.refs specs with
      | .error e => { result := .error e, input }
      | .ok refs => p.send repo produce server refs input

/-- The push as a program. It ends well as soon as it has read what it needs, since more of its input
would change nothing; where it fails, it is taken to wait until its input has ended. -/
def program (p : StatelessPush) (repo : LocalRepository) (produce : PackProducer) : Program :=
  fun i =>
    let run := p.run repo produce i.data
    { effects := [.output run.written]
      ending := if run.result.isOk then .exited 0 else if i.closed then .exited 128 else .waiting
      unread := run.input.length }

end StatelessPush

end GitRemote
