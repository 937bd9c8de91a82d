import GitRemote.Http.Client
import GitRemote.Wire.Advertisement

/-!
# Discovery of refs

A session starts by asking a server for its refs. A smart server answers with an advertisement behind
a header that names the service; any other answer is read as a list of plain files, and the head is
fetched apart. What was discovered for a service is kept until another service is asked for.
-/

namespace GitRemote

/-- A URL with a slash at its end. -/
def normalizeUrl (url : String) : String := if url.endsWith "/" then url else url ++ "/"

/-- Where the refs for a service are found. -/
def refsUrl (base service : String) (smart : Bool) : String :=
  let url := base ++ "info/refs"
  if smart then url ++ (if base.toList.contains '?' then "&" else "?") ++ "service=" ++ service
  else url

/-- The refs of a server. -/
structure Discovery where
  /-- The service that they were asked for. -/
  service : String
  refs : List Ref
  capabilities : Capabilities := {}
  /-- The advertisement as it was sent, without the header of a smart server. -/
  advertisement : Bytes
  smart : Bool
  deriving DecidableEq, Repr

namespace Discovery

/-- Skips lines up to a flush packet. -/
def skipLines (s : Bytes) : Except WireError Bytes :=
  match _h : Packet.readLine s with
  | (.error e, _) => .error e
  | (.ok none, rest) => .ok rest
  | (.ok (some _), rest) => skipLines rest
termination_by s.length
decreasing_by exact Packet.length_readLine_lt _h

/-- The line in a packet; control packets hold none. -/
def lineOf : Packet → Bytes
  | .data payload => dropLineFeed payload
  | .control _ => []

/-- Reads the answer of a smart server. -/
def ofSmart (service : String) (body : Bytes) : Except RemoteError Discovery :=
  match Packet.readDue body with
  | (.error e, _) => .error (.wire e)
  | (.ok p, rest) =>
    if lineOf p = Utf8.encode ("# service=" ++ service) then
      match skipLines rest with
      | .error e => .error (.wire e)
      | .ok advertisement =>
        match (Advertisement.read advertisement).1 with
        | .error e => .error (.wire e)
        | .ok a =>
          .ok { service, refs := a.refs, capabilities := a.capabilities, advertisement, smart := true }
    else .error (.invalidResponse ("got '" ++ Utf8.decodeLossy (lineOf p) ++ "'"))

/-- The head of a server of plain files: a ref that is given, or an id. -/
def head? (content : Bytes) (refs : List Ref) : Option Ref :=
  match Utf8.decode? content with
  | none => none
  | some text =>
    let text := Text.trimEnd text
    match Text.stripStart? "ref: " text with
    | some target =>
      let target := Text.trim target
      (findRef refs target).bind fun i => refs[i]?.map fun r =>
        { name := "HEAD", oldId := r.oldId, symref := some target }
    | none => (ObjectId.ofHex? (Utf8.encode text)).map fun oldId => { name := "HEAD", oldId }

/-- Fetches the head of a server of plain files. Nothing that goes wrong with it matters. -/
def fetchHead (c : Http.Client) (base : String) (refs : List Ref) : Option Ref × Http.Client :=
  match c.send (.get (base ++ "HEAD")) with
  | (.error _, c) => (none, c)
  | (.ok response, c) => (if response.isSuccess then head? response.body refs else none, c)

/-- Reads the answer of a server of plain files. -/
def ofPlain (c : Http.Client) (base service : String) (body : Bytes) :
    Except RemoteError Discovery × Http.Client :=
  match parseInfoRefs body with
  | .error e => (.error (.wire e), c)
  | .ok refs =>
    let (head, c) := fetchHead c base refs
    (.ok { service, refs := head.toList ++ refs, advertisement := body, smart := false }, c)

/-- Asks a server for its refs. -/
def fetch (c : Http.Client) (base service : String) (smart : Bool) :
    Except RemoteError Discovery × Http.Client :=
  match c.send ((Http.Request.get (refsUrl base service smart)).withHeader "Pragma" "no-cache") with
  | (.error e, c) => (.error e, c)
  | (.ok response, c) =>
    if response.isSuccess then
      if smart && response.mediaType? = some ("application/x-" ++ service ++ "-advertisement") then
        (ofSmart service response.body, c)
      else ofPlain c base service response.body
    else if response.status = 404 then (.error (.notFound base), c)
    else (.error (.access base response.status response.remark?), c)

/-- What is known for a service, after asking the server if need be. What is known for another is
forgotten first. -/
def discover (known : Option Discovery) (c : Http.Client) (base service : String) (smart : Bool) :
    Except RemoteError Discovery × Option Discovery × Http.Client :=
  match known.filter (·.service = service) with
  | some d => (.ok d, some d, c)
  | none =>
    match fetch c base service smart with
    | (.ok d, c) => (.ok d, some d, c)
    | (.error e, c) => (.error e, none, c)

end Discovery

end GitRemote
