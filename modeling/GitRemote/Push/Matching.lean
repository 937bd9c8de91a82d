import GitRemote.Object.Links
import GitRemote.Push.Ref
import GitRemote.Push.Refspec

/-!
# Matching refspecs with refs

Each refspec gives a value to one ref of the remote, or to a new one. An update that would lose
history, or of which that cannot be told, is a non-fast-forward and is rejected unless it is forced.
-/

namespace GitRemote

/-- What a push has to know of the local repository. -/
structure LocalRepository where
  source : ObjectSource
  /-- The object that a name stands for. -/
  resolve : String → Except RemoteError (Option ObjectId)
  /-- Whether a commit is another one or comes before it. -/
  isAncestor : ObjectId → ObjectId → Except RemoteError Bool :=
    fun a d => liftStorage (source.isAncestor a d)

namespace LocalRepository

/-- The local name and the value that a refspec pushes. -/
def valueOf (repo : LocalRepository) (spec : Refspec) : Except RemoteError (String × ObjectId) :=
  if spec.isDeletion then .ok ("(delete)", .null)
  else
    match repo.resolve spec.source with
    | .error e => .error e
    | .ok none => .error (.failed (.noSource spec.source))
    | .ok (some id) => .ok (spec.source, id)

/-- Whether an update loses no history: the old value is present and comes before the new one. -/
def isFastForward (repo : LocalRepository) (old new : ObjectId) : Except RemoteError Bool :=
  match repo.source.contains old with
  | .error e => .error (.storage e)
  | .ok false => .ok false
  | .ok true => repo.isAncestor old new

/-- Decides on the status of a ref that has its new value. -/
def annotate (repo : LocalRepository) (force : Bool) (r : Ref) : Except RemoteError Ref :=
  if r.deletion then .ok r
  else if r.oldId = r.newId then .ok { r with status := .upToDate }
  else if r.oldId.isNull then .ok r
  else
    match repo.isFastForward r.oldId r.newId with
    | .error e => .error e
    | .ok fastForward =>
      .ok { r with
        nonFastForward := !fastForward
        status := if fastForward || force then r.status else .nonFastForward }

/-- The refs and the position of the one that a refspec is for, which is added if it is new. -/
def place (refs : List Ref) (spec : Refspec) : Except RemoteError (List Ref × Nat) :=
  match findRef refs spec.target with
  | some i => .ok (refs, i)
  | none =>
    if spec.isDeletion then .error (.failed (.nothingToDelete spec.target))
    else .ok (refs ++ [{ name := spec.target, oldId := .null }], refs.length)

/-- The refs after one refspec. -/
def matchOne (repo : LocalRepository) (refs : List Ref) (spec : Refspec) :
    Except RemoteError (List Ref) :=
  match repo.valueOf spec with
  | .error e => .error e
  | .ok (peer, new) =>
    match place refs spec with
    | .error e => .error e
    | .ok (refs, i) =>
      match refs[i]? with
      | none => .ok refs
      | some r =>
        if r.peer.isSome then .error (.failed (.repeatedTarget spec.target))
        else (repo.annotate spec.force (r.withUpdate peer new)).map (refs.set i ·)

/-- A ref as the remote has it, with nothing decided. -/
def plain (r : Ref) : Ref := { name := r.name, oldId := r.oldId, symref := r.symref }

/-- The refs of a remote, with the values and statuses that some refspecs give them. -/
def matchPush (repo : LocalRepository) (remote : List Ref) (specs : List Refspec) :
    Except RemoteError (List Ref) :=
  specs.foldlM repo.matchOne (remote.map plain)

end LocalRepository

end GitRemote
