import GitRemote.Push.Ref
import GitRemote.Text.Blank
import GitRemote.Text.Quoted

/-!
# Reports of a push

Two reports on the refs of a push: `statusLine?` gives the line that a program reads, and `summary`
the line that people read, with a column for what happened.
-/

namespace GitRemote

/-- The first word of a status line and the message that a status has of its own; a ref that is still
expected to be reported on has no line. -/
def RefStatus.verdict? : RefStatus → Option (String × Option String)
  | .undecided => some ("error", some "no match")
  | .done => some ("ok", none)
  | .upToDate => some ("ok", some "up to date")
  | .nonFastForward => some ("error", some "non-fast forward")
  | .noDelete => some ("error", some "remote does not support deleting refs")
  | .remoteReject => some ("error", none)
  | .expectingReport => none

namespace Ref

/-- The line that a program reads, for refs that took part in the push. What the remote said goes
before the message of the status. -/
def statusLine? (r : Ref) : Option String :=
  match r.peer, r.status.verdict? with
  | some _, some (word, message) =>
    match r.remoteStatus <|> message with
    | some m => some (word ++ " " ++ r.name ++ " " ++ Text.quoteMessage m)
    | none => some (word ++ " " ++ r.name)
  | _, _ => none

end Ref

/-- The status lines of all refs. -/
def statusText (refs : List Ref) : String :=
  String.join ((refs.filterMap Ref.statusLine?).map (· ++ "\n"))

/-- A ref's name without the well-known beginnings. -/
def shortRefName (name : String) : String :=
  (["refs/heads/", "refs/tags/", "refs/remotes/"].findSome? (Text.stripStart? · name)).getD name

/-- The first seven digits of an id. -/
def ObjectId.abbreviated (id : ObjectId) : String := String.ofList (id.hex.toList.take 7)

/-- A text filled up with blanks to the width of the column. -/
def padColumn (s : String) : String :=
  s ++ String.ofList (List.replicate (17 - s.length) ' ')

namespace Ref

/-- A summary line: flag, column, names, and a remark. -/
def summaryLine (flag : Char) (column : String) (r : Ref) (source remark : Option String) :
    String :=
  " " ++ String.ofList [flag] ++ " " ++ padColumn column ++ " " ++
    (source.elim "" fun s => shortRefName s ++ " -> ") ++ shortRefName r.name ++
    (remark.elim "" fun m => " (" ++ m ++ ")")

/-- What a ref that was made is called. -/
def newKind (r : Ref) : String :=
  if (Text.stripStart? "refs/tags/" r.name).isSome then "[new tag]"
  else if (Text.stripStart? "refs/heads/" r.name).isSome then "[new branch]"
  else "[new reference]"

/-- The line that people read. -/
def summary (r : Ref) : String :=
  let sent := if r.deletion then none else r.peer
  match r.status with
  | .undecided => summaryLine 'X' "[no match]" r none none
  | .noDelete =>
    summaryLine '!' "[rejected]" r none (some "remote does not support deleting refs")
  | .upToDate => summaryLine '=' "[up to date]" r r.peer none
  | .nonFastForward => summaryLine '!' "[rejected]" r r.peer (some "non-fast-forward")
  | .remoteReject => summaryLine '!' "[remote rejected]" r sent r.remoteStatus
  | .expectingReport =>
    summaryLine '!' "[remote failure]" r sent (some "remote failed to report status")
  | .done =>
    if r.deletion then summaryLine '-' "[deleted]" r none none
    else if r.oldId.isNull then summaryLine '*' r.newKind r r.peer none
    else if r.nonFastForward then
      summaryLine '+' (r.oldId.abbreviated ++ "..." ++ r.newId.abbreviated) r r.peer
        (some "forced update")
    else summaryLine ' ' (r.oldId.abbreviated ++ ".." ++ r.newId.abbreviated) r r.peer none

end Ref

/-- The report for people. -/
structure PushReport where
  lines : List String
  /-- Some ref was rejected because its update would lose history. -/
  nonFastForward : Bool
  deriving DecidableEq, Repr

/-- Whether a status is a failure that the report lists. -/
def RefStatus.isFailure : RefStatus → Bool
  | .undecided | .upToDate | .done => false
  | _ => true

/-- The report of a push to a destination: what was done before what failed, and refs that needed
nothing only if asked for. -/
def pushReport (destination : String) (refs : List Ref) (verbose : Bool) : PushReport :=
  let upToDate := if verbose then refs.filter (·.status == .upToDate) else []
  let done := refs.filter (·.status == .done)
  let failed := refs.filter (·.status.isFailure)
  let body := (upToDate ++ done ++ failed).map Ref.summary
  let idle := refs.all fun r => r.status == .undecided || r.status == .upToDate
  { lines := (if body.isEmpty then [] else ("To " ++ destination) :: body) ++
      (if idle then ["Everything up-to-date"] else [])
    nonFastForward := refs.any (·.status == .nonFastForward) }

end GitRemote
