import GitRemote.Object.Id

/-!
# Refs

A ref of a remote, the value it has, and the value it should get in a push. Lists of refs are in the
order in which the remote advertised them; where a name occurs twice, the first occurrence counts.
-/

namespace GitRemote

/-- Where a ref stands in a push. -/
inductive RefStatus where
  /-- Nothing is decided. -/
  | undecided
  /-- The remote has the new value already. -/
  | upToDate
  /-- A deletion that the remote cannot carry out. -/
  | noDelete
  /-- The update would lose history. -/
  | nonFastForward
  /-- The remote refused. -/
  | remoteReject
  /-- The update was sent, and the remote is to report on it. -/
  | expectingReport
  | done
  deriving DecidableEq, Repr

/-- Whether a push may succeed with a ref of this status. -/
def RefStatus.isSuccess : RefStatus → Bool
  | .undecided | .upToDate | .done => true
  | _ => false

/-- A ref of a remote. -/
structure Ref where
  name : String
  /-- The value that the remote has. -/
  oldId : ObjectId
  /-- The value to push. -/
  newId : ObjectId := .null
  status : RefStatus := .undecided
  /-- The local ref that the new value comes from. -/
  peer : Option String := none
  deletion : Bool := false
  nonFastForward : Bool := false
  /-- What a symbolic ref points at. -/
  symref : Option String := none
  /-- What the remote said about the update. -/
  remoteStatus : Option String := none
  deriving DecidableEq, Repr

/-- The ref with a value to push from a local ref. No object as the value makes it a deletion. -/
def Ref.withUpdate (r : Ref) (peer : String) (newId : ObjectId) : Ref :=
  { r with peer := some peer, newId, deletion := newId.isNull }

/-- The position of the first ref with a name, from position `start` on. -/
def findRefFrom (refs : List Ref) (start : Nat) (name : String) : Option Nat :=
  ((refs.drop start).findIdx? (·.name == name)).map (· + start)

/-- The position of the first ref with a name. -/
def findRef (refs : List Ref) (name : String) : Option Nat := findRefFrom refs 0 name

/-- The position of a ref with a name, searched from a hint on and then from the start. -/
def findRefHinted (refs : List Ref) (hint : Option Nat) (name : String) : Option Nat :=
  (hint.bind fun start => findRefFrom refs start name) <|> findRef refs name

/-- The refs as if nothing were decided. -/
def resetStatuses (refs : List Ref) : List Ref :=
  refs.map fun r => { r with status := .undecided }

/-- Whether a push may succeed with these refs. -/
def allSucceeded (refs : List Ref) : Bool := refs.all (·.status.isSuccess)

end GitRemote
