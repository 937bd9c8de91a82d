import GitRemote.Object.Source
import GitRemote.Tree.Walk

/-!
# Differences of trees

`diff` walks two trees in step and enters directories that differ. Changes come in the order of the
walk; a path that turns from a file into a directory shows as the deletion of the file and the
additions below the directory.
-/

namespace GitRemote

/-- A change of one path that is no directory. -/
inductive Change where
  | added (path : Bytes) (mode : Nat) (id : ObjectId)
  | deleted (path : Bytes) (mode : Nat) (id : ObjectId)
  | modified (path : Bytes) (oldMode : Nat) (oldId : ObjectId) (newMode : Nat) (newId : ObjectId)
  deriving DecidableEq, Repr

/-- The change between the two sides of a name, directories left out. -/
def Change.between? (f : Frame) (old new : Option Entry) : Option Change :=
  match old.filter (!·.isDir), new.filter (!·.isDir) with
  | some o, some n => some (.modified (f.pathOf o.name) o.mode o.id n.mode n.id)
  | some o, none => some (.deleted (f.pathOf o.name) o.mode o.id)
  | none, some n => some (.added (f.pathOf n.name) n.mode n.id)
  | none, none => none

/-- The buffer of a directory, empty where there is none. -/
def loadTree (source : ObjectSource) (id : Option ObjectId) : Except TreeError Bytes :=
  match id with
  | none => .ok []
  | some id => (source.readTree id).mapError .storage

/-- Cursors over the two sides. Both are read before either is decoded. -/
def loadSides (source : ObjectSource) (old new : Option ObjectId) :
    Except TreeError (Cursor × Cursor) :=
  match loadTree source old, loadTree source new with
  | .error e, _ => .error e
  | .ok _, .error e => .error e
  | .ok old, .ok new =>
    match Cursor.ofBytes old, Cursor.ofBytes new with
    | .error e, _ => .error e
    | .ok _, .error e => .error e
    | .ok old, .ok new => .ok (old, new)

/-- Visits one name on both sides; `below` compares the directories of a child frame. -/
def diffVisit (source : ObjectSource)
    (below : Frame → Cursor → Cursor → List Change → Except TreeError Unit × List Change) :
    Visitor (List Change) TreeError := fun f round changes =>
  let old := (round.entries[0]?).join
  let new := (round.entries[1]?).join
  let same :=
    match old, new with
    | some o, some n => o.id == n.id && o.mode == n.mode
    | _, _ => false
  if same then (.ok round.mask, changes)
  else
    let oldDir := old.filter (·.isDir)
    let newDir := new.filter (·.isDir)
    let entered : Except TreeError Unit × List Change :=
      match oldDir <|> newDir with
      | none => (.ok (), changes)
      | some dir =>
        match loadSides source (oldDir.map Entry.id) (newDir.map Entry.id) with
        | .error e => (.error e, changes)
        | .ok (o, n) => below (f.child dir.name) o n changes
    match entered with
    | (.error e, changes) => (.error e, changes)
    | (.ok (), changes) => (.ok round.mask, changes ++ (Change.between? f old new).toList)

/-- Compares two directories and what is below them, down to `levels` levels. -/
def diffBelow (source : ObjectSource) :
    Nat → Frame → Cursor → Cursor → List Change → Except TreeError Unit × List Change
  | 0, f, _, _, changes => (.error (.tooDeep f.options.maxDepth), changes)
  | levels + 1, f, old, new, changes =>
    walk id f [old, new] (diffVisit source (diffBelow source levels)) changes

/-- The changes from one tree to another, limited to a pathspec if there is one. No tree counts as an
empty one. -/
def diff (source : ObjectSource) (old new : Option ObjectId) (pathspec : Option Pathspec) :
    Except TreeError (List Change) :=
  match loadSides source old new with
  | .error e => .error e
  | .ok (o, n) =>
    let f : Frame := { pathspec }
    match diffBelow source (f.options.maxDepth + 1) f o n [] with
    | (.error e, _) => .error e
    | (.ok (), changes) => .ok changes

end GitRemote
