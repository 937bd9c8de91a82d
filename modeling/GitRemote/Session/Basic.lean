import GitRemote.Fetch.Walk
import GitRemote.Config.Basic
import GitRemote.Remote.Exchange
import GitRemote.Session.Request

/-!
# Sessions

A session serves one remote. It discovers refs when they are first needed, fetches and pushes through
stateless exchanges with a smart server, and otherwise fetches file by file and leaves a push to git.
-/

namespace GitRemote

/-- The URL of a remote without user name and password and with a slash at its end, and the credential
that was in it. -/
def splitUrl (url : String) : Except RemoteError (String × Credential) :=
  match Url.parse url with
  | .error e => .error (.request (.badUrl url e))
  | .ok u => .ok (normalizeUrl u.withoutUserinfo.text, .ofUrl u)

/-- The packets that name the refs to fetch, ended by a flush packet. -/
def fetchPreamble : List String → Except RemoteError Bytes
  | [] => .ok flushPacket
  | name :: rest =>
    if name.isEmpty then .error (.unsupported .fetchById)
    else
      match Packet.frameLine? (Utf8.encode name) with
      | .error e => .error (.wire e)
      | .ok line => (fetchPreamble rest).map (line ++ ·)

/-- A session and all that belongs to it. -/
structure Session where
  /-- The remote, with a slash at the end. -/
  url : String
  config : Config
  options : Options := {}
  /-- What is known of the refs of the remote. -/
  known : Option Discovery := none
  client : Http.Client
  /-- The local repository, if there is one. -/
  gitDir : Option String := none
  /-- The loose objects of the local repository. -/
  objects : LooseDir := {}

namespace Session

/-- Starts a session with the remote at a URL. -/
def start (url : String) (config : Config) (server : Http.Server) (host : Host)
    (gitDir : Option String) (objects : LooseDir) : Except RemoteError Session :=
  (splitUrl url).map fun (url, credential) =>
    let words := config.credentialCommand
    let helper := if words.isEmpty then none else some ⟨words⟩
    { url, config, client := { server, credential, helper, host }, gitDir, objects }

/-- The service that fetches. -/
def fetchService : String := "git-upload-pack"

/-- The service that takes pushes. -/
def pushService : String := "git-receive-pack"

/-- The refs of the remote for a service. -/
def discover (s : Session) (service : String) : Except RemoteError Discovery × Session :=
  let (r, known, client) := Discovery.discover s.known s.client s.url service s.config.smartHttp
  (r, { s with known, client })

/-- Requests to a service. -/
def rpc (s : Session) (service : String) (gzip : Bool) : Rpc :=
  { service, url := s.url, postBuffer := s.config.postBuffer, gzip,
    gzipThreshold := s.config.gzipThreshold }

/-- The line that lists a ref. -/
def refLine (r : Ref) : String :=
  match r.symref with
  | some target => "@" ++ target ++ " " ++ r.name ++ "\n"
  | none => r.oldId.hex ++ " " ++ r.name ++ "\n"

/-- The list of refs. -/
def refList (refs : List Ref) : String := String.join (refs.map refLine) ++ "\n"

/-- Lists the refs of the remote. -/
def list (s : Session) (forPush : Bool) : Except RemoteError Bytes × Session :=
  let (r, s) := s.discover (if forPush then pushService else fetchService)
  (r.map fun d => Utf8.encode (refList d.refs), s)

/-- Fetches from a smart server into a repository. -/
def fetchSmart (s : Session) (gitDir : String) (d : Discovery) (targets : List FetchTarget) :
    Except RemoteError Bytes × Session :=
  match fetchPreamble (targets.map (·.name)) with
  | .error e => (.error e, s)
  | .ok preamble =>
    let command := s.config.fetchCommand s.options (some gitDir) s.url
    let (r, client) := (s.rpc fetchService true).run s.client command preamble d.advertisement
    (r, { s with client })

/-- Fetches file by file. -/
def fetchPlain (s : Session) (targets : List FetchTarget) : Except RemoteError Bytes × Session :=
  if 0 < s.options.depth then (.error (.unsupported .dumbDepth), s)
  else
    let (r, f) := Fetch.run s.url s.config.maxTreeDepth (targets.map (·.id))
      { client := s.client, dir := s.objects }
    (r.map fun _ => [], { s with client := f.client, objects := f.dir })

/-- Fetches objects. -/
def fetch (s : Session) (targets : List FetchTarget) : Except RemoteError Bytes × Session :=
  match s.gitDir with
  | none => (.error (.failed .noRepository), s)
  | some gitDir =>
    match s.discover fetchService with
    | (.error e, s) => (.error e, s)
    | (.ok d, s) =>
      let (r, s) := if d.smart then s.fetchSmart gitDir d targets else s.fetchPlain targets
      (r.map (· ++ [0x0A]), s)

/-- Pushes to a smart server. -/
def pushSmart (s : Session) (d : Discovery) (specs : List String) :
    Except RemoteError Bytes × Session :=
  let command := s.config.sendCommand s.options s.gitDir s.url specs
  let (r, client) := (s.rpc pushService false).run s.client command [] d.advertisement
  (r, { s with client })

/-- Leaves a push to git. -/
def pushPlain (s : Session) (specs : List String) : Except RemoteError Bytes × Session :=
  let command := s.config.httpPushCommand s.options s.gitDir s.url specs
  let (r, host) := s.client.host.run command []
  let s := { s with client := { s.client with host } }
  match r with
  | .error e => (.error (.wire e), s)
  | .ok (_, .error e) => (.error (.failed (.httpPush e)), s)
  | .ok (output, .ok ()) => (.ok output, s)

/-- Pushes refspecs. -/
def push (s : Session) (specs : List String) : Except RemoteError Bytes × Session :=
  match s.discover pushService with
  | (.error e, s) => (.error e, s)
  | (.ok d, s) =>
    let (r, s) := if d.smart then s.pushSmart d specs else s.pushPlain specs
    (r.map (· ++ [0x0A]), s)

/-- Serves one request: the output for it. -/
def answer (s : Session) : Request → Except RemoteError Bytes × Session
  | .capabilities => (.ok (bytesOf "fetch\noption\npush\n\n"), s)
  | .list forPush => s.list forPush
  | .option setting =>
    let (reply, options) := s.options.setLine setting
    (.ok (Utf8.encode (reply.text ++ "\n")), { s with options })
  | .fetch targets => s.fetch targets
  | .push specs => s.push specs

/-- Serves requests up to the first error: all output, and how it ended. -/
def serve (s : Session) : List (Except RemoteError Request) → Bytes × Except RemoteError Unit × Session
  | [] => ([], .ok (), s)
  | .error e :: _ => ([], .error e, s)
  | .ok r :: rest =>
    match s.answer r with
    | (.error e, s) => ([], .error e, s)
    | (.ok output, s) =>
      let (later, ending, s) := s.serve rest
      (output ++ later, ending, s)

/-- Serves the requests that the input makes. -/
def run (s : Session) (input : Bytes) : Bytes × Except RemoteError Unit × Session :=
  s.serve (requests input)

end Session

end GitRemote
