import GitRemote.Text.Blank
import GitRemote.Tree.Error
import GitRemote.Url.Error
import GitRemote.Wire.Error

/-!
# Errors of a session

What can go wrong while a remote is served, with the message for each, the exit status it leads to,
and what the server said about it.
-/

namespace GitRemote

/-- What the helper cannot do. -/
inductive UnsupportedTask where
  | noCredentialHelper
  /-- A smart server is asked for names, not for ids. -/
  | fetchById
  /-- A server of plain files cannot cut history off. -/
  | dumbDepth
  | other (text : String)
  deriving DecidableEq, Repr

/-- The message for a task that cannot be done. -/
def UnsupportedTask.message : UnsupportedTask → String
  | .noCredentialHelper => "no credential helper configured"
  | .fetchById => "cannot fetch by sha1 over smart http"
  | .dumbDepth => "dumb http transport does not support --depth"
  | .other text => text

/-- What is wrong with what the helper is told. -/
inductive RequestFault where
  | badUrl (url : String) (cause : UrlError)
  | noPassword (host : String)
  | badFetch (line : String)
  /-- A line of another command inside a batch. -/
  | mixedBatch (line : String)
  | badRefspec (spec : String)
  | other (text : String)
  deriving DecidableEq, Repr

/-- The message for a faulty request. -/
def RequestFault.message : RequestFault → String
  | .badUrl url cause => "invalid URL '" ++ url ++ "': " ++ cause.message
  | .noPassword host => "credential helper returned no password for " ++ host
  | .badFetch line => "protocol error: expected sha/ref, got '" ++ line ++ "'"
  | .mixedBatch line => "http transport does not support " ++ line
  | .badRefspec spec => "remote part of refspec is not a valid name in " ++ spec
  | .other text => text

/-- Why an operation could not be completed. -/
inductive Setback where
  | noRepository
  | objectMissing (id : ObjectId) (base : String)
  | treeTooDeep
  /-- A refspec whose source names nothing. -/
  | noSource (name : String)
  /-- A deletion of a ref that the remote does not have. -/
  | nothingToDelete (name : String)
  /-- Two refspecs for one ref. -/
  | repeatedTarget (name : String)
  | httpPush (cause : WireError)
  | other (text : String)
  deriving DecidableEq, Repr

/-- The message for a setback. -/
def Setback.message : Setback → String
  | .noRepository => "Fetch attempted without a local repo"
  | .objectMissing id base => "Unable to find " ++ id.hex ++ " under " ++ base
  | .treeTooDeep => "exceeded maximum allowed tree depth"
  | .noSource name => "src refspec " ++ name ++ " does not match any"
  | .nothingToDelete name => "unable to delete '" ++ name ++ "': remote ref does not exist"
  | .repeatedTarget name => "multiple updates for ref '" ++ name ++ "' not allowed"
  | .httpPush cause => "git-http-push failed: " ++ cause.message
  | .other text => text

/-- What is wrong with the configuration. -/
inductive ConfigFault where
  | noFile
  | malformed
  | badValue (key : String)
  deriving DecidableEq, Repr

/-- The message for a faulty configuration. -/
def ConfigFault.message : ConfigFault → String
  | .noFile => "configuration file not found"
  | .malformed => "configuration file is malformed"
  | .badValue key => "invalid value for " ++ key

/-- Why a session failed. -/
inductive RemoteError where
  /-- There is no repository at a URL. -/
  | notFound (url : String)
  /-- The server answered with a status that is no success, and possibly said why. -/
  | access (url : String) (status : Nat) (remark : Option String)
  | authFailed (url : String)
  /-- The request was not answered. -/
  | transport (url reason : String)
  /-- A request inside an exchange was answered with a status that is no success. -/
  | rpc (status : Nat) (remark : Option String)
  | invalidResponse (text : String)
  | unsupported (task : UnsupportedTask)
  | request (fault : RequestFault)
  | unknownCommand (line : String)
  | failed (setback : Setback)
  | config (fault : ConfigFault)
  | wire (cause : WireError)
  | tree (cause : TreeError)
  | storage (cause : StorageError)
  | io (text : String)
  deriving DecidableEq, Repr

namespace RemoteError

/-- The message for an error. -/
def message : RemoteError → String
  | .notFound url => "repository '" ++ url ++ "' not found"
  | .access url status _ =>
    "unable to access '" ++ url ++ "': The requested URL returned error: " ++ toString status
  | .authFailed url => "Authentication failed for '" ++ url ++ "'"
  | .transport url reason => "unable to access '" ++ url ++ "': " ++ reason
  | .rpc status _ => "RPC failed; HTTP " ++ toString status
  | .invalidResponse text => "invalid server response; " ++ text
  | .unsupported task => task.message
  | .request fault => fault.message
  | .unknownCommand line => "Unknown command '" ++ line ++ "'"
  | .failed setback => setback.message
  | .config fault => "configuration error: " ++ fault.message
  | .wire cause => cause.message
  | .tree cause => cause.message
  | .storage cause => cause.message
  | .io text => "I/O error: " ++ text

/-- The exit status: one for a stream of commands that is bad itself, 128 for all else. -/
def exitCode : RemoteError → Nat
  | .unknownCommand _ => 1
  | _ => 128

/-- What the server said, every line marked as the server's. -/
def remoteMessage? : RemoteError → Option String
  | .access _ _ remark | .rpc _ remark =>
    remark.map fun text => String.join ((Text.lines text).map fun line => "remote: " ++ line ++ "\n")
  | _ => none

end RemoteError

/-- The error as one of a session. -/
def liftWire {α : Type} (r : Except WireError α) : Except RemoteError α := r.mapError .wire

/-- The error as one of a session. -/
def liftStorage {α : Type} (r : Except StorageError α) : Except RemoteError α := r.mapError .storage

end GitRemote
