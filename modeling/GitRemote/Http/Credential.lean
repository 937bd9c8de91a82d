import GitRemote.Process.Program
import GitRemote.Remote.Error
import GitRemote.Url.Basic

/-!
# Credentials

Who is to be authenticated where, and the helper programs that know passwords. A helper is given a
credential as `key=value` lines with a blank line at the end and answers in the same form.
-/

namespace GitRemote

/-- A user's identity at a host. -/
structure Credential where
  protocol : String := ""
  /-- The host, with its port unless that is the default. -/
  host : String := ""
  username : Option String := none
  password : Option String := none
  deriving DecidableEq, Repr

namespace Credential

/-- What a URL says of the identity that it needs. -/
def ofUrl (u : Url) : Credential :=
  { protocol := u.scheme
    host := u.authority.elim "" Url.Authority.hostText
    username := (u.authority.map (·.username)).filter (!·.isEmpty)
    password := u.authority.bind (·.password) }

/-- Whether both user name and password are known. -/
def isComplete (c : Credential) : Bool := c.username.isSome && c.password.isSome

/-- A line of a credential, if its value is known. -/
def line (key : String) (value : Option String) : String :=
  value.elim "" fun v => key ++ "=" ++ v ++ "\n"

/-- A credential as a helper reads it. -/
def text (c : Credential) : String :=
  line "protocol" (some c.protocol) ++ line "host" (some c.host) ++ line "username" c.username ++
    line "password" c.password ++ "\n"

/-- The credential after one line of a helper. Unknown keys change nothing. -/
def update (c : Credential) (entry : String) : Credential :=
  match Text.cutAt? '=' entry with
  | some ("protocol", v) => { c with protocol := v }
  | some ("host", v) => { c with host := v }
  | some ("username", v) => { c with username := some v }
  | some ("password", v) => { c with password := some v }
  | _ => c

/-- The credential after the answer of a helper, which a blank line ends. -/
def updateAll (c : Credential) (answer : String) : Credential :=
  ((Text.lines answer).takeWhile (!·.isEmpty)).foldl update c

end Credential

/-- What a helper is asked to do with a credential. -/
inductive CredentialAction where
  /-- Complete it. -/
  | fill
  /-- Remember it, for it worked. -/
  | approve
  /-- Forget it, for it was refused. -/
  | reject
  deriving DecidableEq, Repr

/-- The name of an action as the helper's last argument. -/
def CredentialAction.name : CredentialAction → String
  | .fill => "fill"
  | .approve => "approve"
  | .reject => "reject"

/-- A helper: a program and its arguments, without the action. -/
structure CredentialHelper where
  words : List String
  deriving DecidableEq, Repr

namespace CredentialHelper

/-- The command for an action. -/
def command? (h : CredentialHelper) (action : CredentialAction) : Option Command :=
  match h.words with
  | [] => none
  | program :: args => some { program, args := args ++ [action.name] }

/-- What a helper answered, once it has ended. -/
def answer (output : Bytes) (verdict : Except WireError Unit) : Except RemoteError String :=
  match Utf8.decode? output, verdict with
  | none, _ => .error (.io "stream did not contain valid UTF-8")
  | some _, .error e => .error (.wire e)
  | some text, .ok () => .ok text

/-- Runs a helper on a host. -/
def run (h : CredentialHelper) (action : CredentialAction) (c : Credential) (host : Host) :
    Except RemoteError String × Host :=
  match h.command? action with
  | none => (.error (.unsupported .noCredentialHelper), host)
  | some command =>
    match host.run command (Utf8.encode c.text) with
    | (.error e, host) => (.error (.wire e), host)
    | (.ok (output, verdict), host) => (answer output verdict, host)

/-- Asks a helper to complete a credential. What it says counts even if it is not enough. -/
def fill (h : CredentialHelper) (c : Credential) (host : Host) :
    Except RemoteError Unit × Credential × Host :=
  match h.run .fill c host with
  | (.error e, host) => (.error e, c, host)
  | (.ok text, host) =>
    let c := c.updateAll text
    (if c.isComplete then .ok () else .error (.request (.noPassword c.host)), c, host)

/-- Tells a helper what became of a credential. -/
def tell (h : CredentialHelper) (action : CredentialAction) (c : Credential) (host : Host) :
    Except RemoteError Unit × Host :=
  match h.run action c host with
  | (.error e, host) => (.error e, host)
  | (.ok _, host) => (.ok (), host)

end CredentialHelper

end GitRemote
