import GitRemote.Push.Pack
import GitRemote.Push.StatusReport
import GitRemote.Wire.Advertisement
import GitRemote.Wire.Sideband

/-!
# Sending a push

One command goes out for each ref that is eligible, then the pack if some ref gets a value, and the
server's report is read back. A ref without a local counterpart, one that is up to date and one that
would lose history are passed over; a deletion that the server cannot carry out is rejected here.
-/

namespace GitRemote

/-- What becomes of a ref while commands are written. -/
inductive Eligibility where
  | passedOver
  /-- A deletion that the server cannot carry out. -/
  | undeletable
  | eligible
  deriving DecidableEq, Repr

/-- Decides on a ref. -/
def Ref.eligibility (r : Ref) (mirror allowDelete : Bool) : Eligibility :=
  if r.peer.isNone && !mirror then .passedOver
  else if r.status = .nonFastForward ∨ r.status = .upToDate then .passedOver
  else if r.deletion && !allowDelete then .undeletable
  else .eligible

/-- What was agreed with the server. -/
structure Agreement where
  statusReport : Bool
  allowDelete : Bool
  sideband : Bool
  /-- The words that go with the first command. -/
  announced : List String
  deriving DecidableEq, Repr

/-- What follows from the server's capabilities. -/
def Agreement.of (caps : Capabilities) (args : PushArgs) : Agreement :=
  let statusReport := caps.has "report-status"
  let sideband := caps.has "side-band-64k"
  { statusReport
    allowDelete := caps.has "delete-refs"
    sideband
    announced :=
      (if statusReport then ["report-status"] else []) ++
      (if sideband then ["side-band-64k"] else []) ++
      (if args.quiet && caps.has "quiet" then ["quiet"] else []) ++
      (if caps.has "agent" then ["agent=" ++ args.agent] else []) }

/-- The text of a command. -/
def Ref.command (r : Ref) : Bytes :=
  r.oldId.hexBytes ++ 0x20 :: (r.newId.hexBytes ++ 0x20 :: Utf8.encode r.name)

/-- The text of a command, with the agreement behind a NUL if it is the first. -/
def commandLine (a : Agreement) (sent : Bool) (r : Ref) : Bytes :=
  if !sent && !a.announced.isEmpty then
    r.command ++ 0 :: Utf8.encode (" ".intercalate a.announced)
  else r.command

/-- The commands of a push, and the refs as they stand then. -/
structure Commands where
  refs : List Ref
  bytes : Bytes := []
  newRefs : Nat := 0
  sent : Bool := false
  error : Option WireError := none
  deriving DecidableEq, Repr

/-- The commands with one more ref in front. -/
def Commands.cons (r : Ref) (c : Commands) : Commands := { c with refs := r :: c.refs }

/-- Writes the commands for some refs, of which the first goes out after others if `sent` is set. A
command that is too long ends the push. -/
def writeCommands (a : Agreement) (args : PushArgs) : Bool → List Ref → Commands
  | sent, [] => { refs := [], sent }
  | sent, r :: rest =>
    match r.eligibility args.mirror a.allowDelete with
    | .passedOver => (writeCommands a args sent rest).cons r
    | .undeletable => (writeCommands a args sent rest).cons { r with status := .noDelete }
    | .eligible =>
      let counted (c : Commands) : Commands :=
        { c with newRefs := c.newRefs + (!r.deletion).toNat }
      if args.dryRun then
        counted ((writeCommands a args sent rest).cons { r with status := .done })
      else
        match Packet.frameLine? (commandLine a sent r) with
        | .error e => { refs := r :: rest, sent, error := some e }
        | .ok line =>
          let c := writeCommands a args true rest
          counted ({ c with bytes := line ++ c.bytes }.cons
            { r with status := if a.statusReport then .expectingReport else .done })

/-- The end of a push: its result, the refs, and what went over the wire. -/
structure PushRun (σ : Type) where
  result : Except WireError PushOutcome
  refs : List Ref
  /-- What was written. -/
  written : Bytes
  /-- What the builder of packs was asked for. -/
  request : Option PackRequest := none
  /-- What is left of the server's answer. -/
  input : σ

variable {σ : Type}

/-- The bytes of the commands as they go out. A transport that keeps no state gets them in packets,
and nothing at all if there is no command. -/
def frameCommands (args : PushArgs) (c : Commands) : Except WireError Bytes :=
  let request := c.bytes ++ flushPacket
  if args.stateless then
    if c.sent then sendBand none request packetLimit else .ok []
  else .ok request

/-- What came of the pack of a push. -/
structure PackStep where
  /-- The refs, without any status if the pack is not complete. -/
  refs : List Ref
  written : Bytes := []
  /-- What the builder of packs was asked for. -/
  request : Option PackRequest := none
  error : Option WireError := none

/-- Builds the pack if one is due. -/
def buildPack (source : ObjectSource) (produce : PackProducer) (haves : List ObjectId)
    (args : PushArgs) (c : Commands) : PackStep :=
  if c.newRefs = 0 || !c.sent then { refs := c.refs }
  else
    match PackRequest.collect source c.refs haves args with
    | .error e => { refs := c.refs, error := some (.storage e) }
    | .ok request =>
      match produce request with
      | (written, .ok ()) => { refs := c.refs, written, request := some request }
      | (written, .error e) =>
        { refs := resetStatuses c.refs, written, request := some request, error := some e }

/-- Reads the server's report, through side bands if they were agreed on, and puts the reader back to
the server's answer. -/
def readAgreedReport (a : Agreement) (refs : List Ref) (outcome : PushOutcome) (input : Bytes) :
    (Except WireError Unit × ReportState) × Bytes :=
  if a.sideband then
    let (r, d) := readReport refs outcome ({ rest := input } : Demux)
    (r, d.rest)
  else readReport refs outcome input

/-- The warning that there is nothing to push. -/
def nothingToPush : PushOutcome := { success := true, warnings := [.nothingToDo] }

/-- Pushes refs to a server whose answer is `input`. If the pack cannot be built, no status is kept. -/
def sendPush (input : Bytes) (server : Advertisement) (refs : List Ref) (args : PushArgs)
    (source : ObjectSource) (produce : PackProducer) : PushRun Bytes :=
  if refs.isEmpty then { result := .ok nothingToPush, refs, written := [], input }
  else
    let a := Agreement.of server.capabilities args
    let packArgs := { args with ofsDelta := args.ofsDelta || server.capabilities.has "ofs-delta" }
    let c := writeCommands a args false refs
    match c.error with
    | some e => { result := .error e, refs := c.refs, written := [], input }
    | none =>
      match frameCommands args c with
      | .error e => { result := .error e, refs := c.refs, written := [], input }
      | .ok commands =>
        let pack := buildPack source produce server.haves packArgs c
        let refs := pack.refs
        let request := pack.request
        match pack.error with
        | some e =>
          { result := .error e, refs, written := commands ++ pack.written, request, input }
        | none =>
          let written :=
            commands ++ pack.written ++ (if args.stateless && c.sent then flushPacket else [])
          let outcome : PushOutcome := { commandsSent := c.sent, newRefs := c.newRefs }
          if a.statusReport && c.sent then
            match readAgreedReport a refs outcome input with
            | ((.error e, state), input) =>
              { result := .error e, refs := state.refs, written, request, input }
            | ((.ok (), state), input) =>
              { result := .ok { state.outcome with
                  success := state.outcome.errors.isEmpty && allSucceeded state.refs }
                refs := state.refs, written, request, input }
          else
            { result := .ok { outcome with success := allSucceeded refs }
              refs, written, request, input }

end GitRemote
