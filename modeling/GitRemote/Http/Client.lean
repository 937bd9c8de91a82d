import GitRemote.Http.Credential
import GitRemote.Http.Server

/-!
# Clients

A client sends requests with the credential of its session. If the server refuses, the credential is
filled in by the helper and the request is sent once more; a credential that worked is approved once,
and one that was refused is rejected.
-/

namespace GitRemote.Http

/-- What a client did, for the record. -/
inductive Event where
  /-- A request was sent with this credential and answered with this status, if it was answered. -/
  | asked (credential : Credential) (status : Option Nat)
  /-- The helper was run on a credential, and whether that went well. -/
  | helped (action : CredentialAction) (credential : Credential) (ok : Bool)
  deriving DecidableEq, Repr

/-- A session's client, the server it talks to, and the host it runs on. -/
structure Client where
  server : Server
  credential : Credential := {}
  helper : Option CredentialHelper := none
  /-- The helper was told that the credential works. -/
  approved : Bool := false
  host : Host := {}
  /-- What was done so far, the latest first. -/
  events : List Event := []

namespace Client

/-- The request with the credential, as soon as a user is known. -/
def authorize (c : Client) (r : Request) : Request :=
  match c.credential.username with
  | some username => { r with auth := some { username, password := c.credential.password } }
  | none => r

/-- The client after it did something. -/
def record (c : Client) (e : Event) : Client := { c with events := e :: c.events }

/-- Sends a request once. -/
def execute (c : Client) (r : Request) : Except RemoteError Response × Client :=
  let (answer, server) := c.server.answer (c.authorize r)
  let status := answer.toOption.map (·.status)
  (answer, ({ c with server } : Client).record (.asked c.credential status))

/-- Tells the helper, if there is one, what became of the credential. -/
def tell (c : Client) (action : CredentialAction) : Except RemoteError Unit × Client :=
  match c.helper with
  | none => (.ok (), c)
  | some helper =>
    let (r, host) := helper.tell action c.credential c.host
    (r, ({ c with host } : Client).record (.helped action c.credential r.isOk))

/-- Gives up on a request that the server refused. What the helper says to that does not matter. -/
def refused (c : Client) (url : String) : Except RemoteError Response × Client :=
  (.error (.authFailed url), (c.tell .reject).2)

/-- Completes the credential. -/
def fill (c : Client) (helper : CredentialHelper) : Except RemoteError Unit × Client :=
  let (r, credential, host) := helper.fill c.credential c.host
  (r, ({ c with credential, host } : Client).record (.helped .fill c.credential r.isOk))

/-- Takes in a response that is no refusal. -/
def settle (c : Client) (response : Response) : Except RemoteError Response × Client :=
  if response.isSuccess && c.credential.isComplete && !c.approved then
    match c.tell .approve with
    | (.error e, c) => (.error e, c)
    | (.ok (), c) => (.ok response, { c with approved := true })
  else (.ok response, c)

/-- Sends a request again after it was refused for want of a credential. -/
def retry (c : Client) (r : Request) (helper : CredentialHelper) :
    Except RemoteError Response × Client :=
  match c.fill helper with
  | (.error e, c) => (.error e, c)
  | (.ok (), c) =>
    match c.execute r with
    | (.error e, c) => (.error e, c)
    | (.ok response, c) => if response.status = 401 then c.refused r.url else c.settle response

/-- Sends a request, and once more with a credential of the helper if the server wants one. Any other
status is left to the caller. -/
def send (c : Client) (r : Request) : Except RemoteError Response × Client :=
  match c.execute r with
  | (.error e, c) => (.error e, c)
  | (.ok response, c) =>
    if response.status = 401 then
      match c.helper with
      | some helper =>
        if r.isRepeatable && !c.credential.isComplete then c.retry r helper else c.refused r.url
      | none => c.refused r.url
    else c.settle response

end Client

end GitRemote.Http
