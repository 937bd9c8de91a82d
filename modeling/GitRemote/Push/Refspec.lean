import GitRemote.Remote.Error

/-!
# Refspecs of a push

A refspec names a local source and a remote ref with a colon between them; a plus sign in front forces
the update. Without a colon both have one name, and without a source the ref is deleted.
-/

namespace GitRemote

/-- What to push where. -/
structure Refspec where
  force : Bool
  /-- The local revision; nothing deletes the ref. -/
  source : String
  /-- The remote ref. -/
  target : String
  deriving DecidableEq, Repr

namespace Refspec

/-- Whether a text can name a remote ref. -/
def isTarget (name : String) : Bool :=
  (Text.stripStart? "refs/" name).isSome && !name.endsWith "/"

/-- Reads a refspec. -/
def parse (spec : String) : Except RemoteError Refspec :=
  let (force, rest) := (Text.stripStart? "+" spec).elim (false, spec) fun rest => (true, rest)
  let (source, target) := (Text.cutAt? ':' rest).getD (rest, rest)
  if isTarget target then .ok { force, source, target }
  else .error (.request (.badRefspec spec))

/-- Whether a refspec deletes its ref. -/
def isDeletion (s : Refspec) : Bool := s.source.isEmpty

end Refspec

end GitRemote
