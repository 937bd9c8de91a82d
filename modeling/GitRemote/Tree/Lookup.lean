import GitRemote.Object.Source
import GitRemote.Tree.Cursor

/-!
# Looking names and paths up

`Cursor.find` looks one name up in a tree and stops as soon as plain byte order says that the name
cannot come any more. `lookupPath` follows a path through nested trees.
-/

namespace GitRemote

/-- How an entry's name compares with the front of a path. -/
inductive NameMatch where
  /-- The path starts with the name, and this follows. -/
  | starts (rest : Bytes)
  /-- The path is less than the name: no later name can match. -/
  | below
  /-- The path is greater, or shorter than the name. -/
  | other
  deriving DecidableEq, Repr

/-- Compares an entry's name with the front of a path. A name longer than the path is passed over. -/
def matchName (name path : Bytes) : NameMatch :=
  if path.length < name.length then .other
  else
    match compareNames (path.take name.length) name with
    | .eq => .starts (path.drop name.length)
    | .lt => .below
    | .gt => .other

/-- The outcome of a scan that met no match: the fault behind the entries, if there is one. -/
def endOfScan {α : Type} : Option TreeError → Except TreeError (Option α)
  | some e => .error e
  | none => .ok none

/-- The first entry with this name, among entries in stored order. -/
def findName (name : Bytes) (fault : Option TreeError) :
    List Entry → Except TreeError (Option Entry)
  | [] => endOfScan fault
  | e :: rest =>
    match matchName e.name name with
    | .starts [] => .ok (some e)
    | .below => .ok none
    | _ => findName name fault rest

/-- The first entry ahead with this name. -/
def Cursor.find (c : Cursor) (name : Bytes) : Except TreeError (Option Entry) :=
  findName name c.fault c.entries

/-- Where a scan for the first component of a path ends. -/
inductive PathStep where
  | found (e : Entry)
  /-- The rest of the path is to be looked up in this directory. -/
  | descend (e : Entry) (rest : Bytes)
  | absent

/-- Scans a tree for the first component of a path. One slash may stand after the last component, if
that is a directory. -/
def pathStep (path : Bytes) (fault : Option TreeError) :
    List Entry → Except TreeError PathStep
  | [] =>
    match fault with
    | some e => .error e
    | none => .ok .absent
  | e :: rest =>
    match matchName e.name path with
    | .starts [] => .ok (.found e)
    | .starts (b :: below) =>
      if b = 0x2F then
        if e.isDir then
          if below.isEmpty then .ok (.found e) else .ok (.descend e below)
        else .ok .absent
      else pathStep path fault rest
    | .below => .ok .absent
    | .other => pathStep path fault rest

/-- Follows a path from a tree. Each step takes at least a slash off the path, so `fuel` need not
exceed its length. -/
def lookupPathFrom (source : ObjectSource) :
    Nat → ObjectId → Bytes → Except TreeError (Option (ObjectId × Nat))
  | 0, _, _ => .ok none
  | fuel + 1, root, path =>
    match source.readTree root with
    | .error e => .error (.storage e)
    | .ok buf =>
      match Cursor.ofBytes buf with
      | .error e => .error e
      | .ok c =>
        match pathStep path c.fault c.entries with
        | .error e => .error e
        | .ok .absent => .ok none
        | .ok (.found e) => .ok (some (e.id, e.mode))
        | .ok (.descend e rest) => lookupPathFrom source fuel e.id rest

/-- The id and the mode that a path names below a tree. The empty path names the tree itself. -/
def lookupPath (source : ObjectSource) (root : ObjectId) (path : Bytes) :
    Except TreeError (Option (ObjectId × Nat)) :=
  if path.isEmpty then .ok (some (root, modeTree))
  else lookupPathFrom source path.length root path

end GitRemote
