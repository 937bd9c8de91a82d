import GitRemote.Remote.Error

/-!
# Requests of a session

The caller gives one command a line. Commands to fetch and to push come in batches, each ended by an
empty line; an empty line outside a batch ends the session. A line that makes no request ends it with
an error.
-/

namespace GitRemote

/-- An object to fetch, and the name it was advertised under, if any. -/
structure FetchTarget where
  id : ObjectId
  name : String
  deriving DecidableEq, Repr

/-- Reads what a command to fetch asks for: an id, possibly followed by a name. -/
def FetchTarget.parse (args : String) : Except RemoteError FetchTarget :=
  let (digits, name) := (Text.cutAt? ' ' args).getD (args, "")
  match ObjectId.ofHex? (Utf8.encode digits) with
  | some id => .ok { id, name }
  | none => .error (.request (.badFetch args))

namespace Session

/-- What the caller asks for. -/
inductive Request where
  | capabilities
  | list (forPush : Bool)
  | option (setting : String)
  | fetch (targets : List FetchTarget)
  | push (specs : List String)
  deriving DecidableEq, Repr

/-- What a batch asks for so far. -/
inductive Batch where
  | fetch (targets : List FetchTarget)
  | push (specs : List String)
  deriving DecidableEq, Repr

/-- The request that a batch makes. -/
def Batch.request : Batch → Request
  | .fetch targets => .fetch targets
  | .push specs => .push specs

/-- The batch with one more line. -/
def Batch.add (b : Batch) (line : String) : Except RemoteError Batch :=
  match b with
  | .fetch targets =>
    match Text.stripStart? "fetch " line with
    | some args => (FetchTarget.parse args).map fun t => .fetch (targets ++ [t])
    | none => .error (.request (.mixedBatch line))
  | .push specs =>
    match Text.stripStart? "push " line with
    | some spec => .ok (.push (specs ++ [spec]))
    | none => .error (.request (.mixedBatch line))

/-- What a line outside a batch means. -/
inductive Opening where
  | single (r : Request)
  | batch (b : Batch)
  deriving DecidableEq, Repr

/-- Whether a text occurs in another. -/
def occurs (part : List Char) : List Char → Bool
  | [] => part.isEmpty
  | c :: rest => (Text.after? part (c :: rest)).isSome || occurs part rest

/-- Reads a line outside a batch. -/
def Opening.parse (line : String) : Except RemoteError Opening :=
  if line = "capabilities" then .ok (.single .capabilities)
  else if line = "list" then .ok (.single (.list false))
  else
    match Text.stripStart? "list " line with
    | some args => .ok (.single (.list (occurs "for-push".toList args.toList)))
    | none =>
      match Text.stripStart? "fetch " line with
      | some args => (FetchTarget.parse args).map fun t => .batch (.fetch [t])
      | none =>
        match Text.stripStart? "push " line with
        | some spec => .ok (.batch (.push [spec]))
        | none =>
          match Text.stripStart? "option " line with
          | some setting => .ok (.single (.option setting))
          | none => .error (.unknownCommand line)

/-- The text of a line without line feeds and carriage returns at its end. -/
def lineText (raw : Bytes) : Except RemoteError String :=
  match Utf8.decode? raw with
  | none => .error (.io "stream did not contain valid UTF-8")
  | some s =>
    .ok (String.ofList ((s.toList.reverse.dropWhile fun c => c == '\n' || c == '\r').reverse))

/-- The lines of the input. A line end at its end starts no further line. -/
def rawLines (input : Bytes) : List Bytes :=
  let pieces := Text.splitOn (· == (0x0A : UInt8)) input
  if pieces.getLast? = some [] then pieces.dropLast else pieces

/-- The requests that some lines make, inside a batch if one is open. -/
def requestsFrom : Option Batch → List Bytes → List (Except RemoteError Request)
  | none, [] => []
  | some b, [] => [.ok b.request]
  | open?, raw :: rest =>
    match open?, lineText raw with
    | _, .error e => [.error e]
    | none, .ok line =>
      if line.isEmpty then []
      else
        match Opening.parse line with
        | .error e => [.error e]
        | .ok (.single r) => .ok r :: requestsFrom none rest
        | .ok (.batch b) => requestsFrom (some b) rest
    | some b, .ok line =>
      if line.isEmpty then .ok b.request :: requestsFrom none rest
      else
        match b.add line with
        | .error e => [.error e]
        | .ok b => requestsFrom (some b) rest

/-- The requests that the input makes, up to the first error. -/
def requests (input : Bytes) : List (Except RemoteError Request) := requestsFrom none (rawLines input)

end Session

end GitRemote
