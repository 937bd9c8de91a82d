import GitRemote.Push.Ref
import GitRemote.Wire.Packet

/-!
# What a server reports on a push

The report is a line on the pack, one line for each update, and a flush packet. A ref's status moves
only while its report is expected. The search for a name goes on behind the ref that was reported
last and then from the start, so a report in the order of the request is read in one pass.
-/

namespace GitRemote

/-- What in a report makes the push fail. -/
inductive ReportFault where
  | unpackFailed (detail : String)
  | noStatus
  | badLine (line : String)
  deriving DecidableEq, Repr

/-- The message for a fault. -/
def ReportFault.message : ReportFault → String
  | .unpackFailed detail => "unpack failed: " ++ detail
  | .noStatus => "did not receive remote status"
  | .badLine line => "protocol error: " ++ line

/-- What is odd about a push and does not make it fail. -/
inductive PushOddity where
  | nothingToDo
  | unknownRef (name : String)
  | unaskedRef (name : String)
  deriving DecidableEq, Repr

/-- The message for an oddity. -/
def PushOddity.message : PushOddity → String
  | .nothingToDo =>
    "No refs in common and none specified; doing nothing.\n" ++
      "Perhaps you should specify a branch such as 'master'."
  | .unknownRef name => "remote reported status on unknown ref: " ++ name
  | .unaskedRef name => "remote reported status on a ref we did not ask about: " ++ name

/-- What happened in a push besides the statuses of the refs. -/
structure PushOutcome where
  /-- At least one command was sent. -/
  commandsSent : Bool := false
  /-- The number of updates among the refs sent that are no deletions. -/
  newRefs : Nat := 0
  /-- The detail of a failure to unpack. -/
  unpackError : Option String := none
  errors : List ReportFault := []
  warnings : List PushOddity := []
  success : Bool := false
  deriving DecidableEq, Repr

namespace PushOutcome

/-- The outcome with one more fault. -/
def fail (o : PushOutcome) (f : ReportFault) : PushOutcome := { o with errors := o.errors ++ [f] }

/-- The outcome with one more oddity. -/
def warn (o : PushOutcome) (w : PushOddity) : PushOutcome :=
  { o with warnings := o.warnings ++ [w] }

end PushOutcome

/-- What a line says of a ref: whether the update was done, the name, and a message. -/
structure ReportLine where
  ok : Bool
  name : String
  message : Option String
  deriving DecidableEq, Repr

/-- Reads a line on a ref. -/
def ReportLine.parse? (line : Bytes) : Option ReportLine :=
  let body : Option (Bool × Bytes) :=
    match Text.after? (bytesOf "ok ") line with
    | some rest => some (true, rest)
    | none => (Text.after? (bytesOf "ng ") line).map fun rest => (false, rest)
  body.map fun (ok, rest) =>
    let text := Utf8.decodeLossy rest
    match Text.cutAt? ' ' text with
    | some (name, message) => ⟨ok, name, some message⟩
    | none => ⟨ok, text, none⟩

/-- A ref with what was reported on it. -/
def Ref.report (r : Ref) (line : ReportLine) : Ref :=
  { r with
    status := if line.ok then .done else .remoteReject
    remoteStatus := line.message <|> r.remoteStatus }

/-- What is known while a report is read. -/
structure ReportState where
  refs : List Ref
  outcome : PushOutcome
  /-- Where to start the search for the next name. -/
  hint : Option Nat := none
  deriving DecidableEq, Repr

/-- Takes in a line on a ref. -/
def ReportState.accept (s : ReportState) (line : ReportLine) : ReportState :=
  match findRefHinted s.refs s.hint line.name with
  | none => { s with hint := none, outcome := s.outcome.warn (.unknownRef line.name) }
  | some i =>
    match s.refs[i]? with
    | none => s
    | some r =>
      if r.status = .expectingReport then
        { s with refs := s.refs.set i (r.report line), hint := some (i + 1) }
      else { s with hint := some i, outcome := s.outcome.warn (.unaskedRef line.name) }

variable {σ : Type} [ByteSource σ]

/-- Reads lines on refs up to a flush packet or a line that is none. A line takes at least four
bytes, so `fuel` need not exceed their number. -/
def readRefReports : Nat → ReportState → σ → (Except WireError Unit × ReportState) × σ
  | 0, state, s => ((.ok (), state), s)
  | fuel + 1, state, s =>
    match Packet.readLine s with
    | (.error e, s) => ((.error e, state), s)
    | (.ok none, s) => ((.ok (), state), s)
    | (.ok (some line), s) =>
      match ReportLine.parse? line with
      | some l => readRefReports fuel (state.accept l) s
      | none =>
        let outcome := state.outcome.fail (.badLine (Utf8.decodeLossy line))
        ((.ok (), { state with outcome }), s)

/-- Reads a report. Without its first line there is nothing more to read. -/
def readReport (refs : List Ref) (outcome : PushOutcome) (s : σ) :
    (Except WireError Unit × ReportState) × σ :=
  match Packet.readLine s with
  | (.error e, s) => ((.error e, { refs, outcome }), s)
  | (.ok line?, s) =>
    match line?.bind (Text.after? (bytesOf "unpack ")) with
    | none => ((.ok (), { refs, outcome := outcome.fail .noStatus }), s)
    | some detail =>
      let outcome :=
        if detail = bytesOf "ok" then outcome
        else
          let text := Utf8.decodeLossy detail
          { outcome.fail (.unpackFailed text) with unpackError := some text }
      readRefReports (ByteSource.bound s + 1) { refs, outcome } s

end GitRemote
