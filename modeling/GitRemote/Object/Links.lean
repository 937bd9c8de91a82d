import GitRemote.Object.Source
import GitRemote.Text.Blank

/-!
# Links between objects

A commit names its tree and its parents, and a tag its object, each in a header line of a keyword and
an id. The header ends at the first empty line; what a message says links nothing.
-/

namespace GitRemote

/-- The ids that some lines give under one of some keywords, up to the first empty line. -/
def linksIn (keys : List Bytes) : List Bytes → Except StorageError (List ObjectId)
  | [] => .ok []
  | [] :: _ => .ok []
  | line :: rest =>
    match Text.cut? (· == (0x20 : UInt8)) line with
    | none => linksIn keys rest
    | some (key, digits) =>
      if keys.contains key then
        match ObjectId.parse digits with
        | .error e => .error e
        | .ok id => (linksIn keys rest).map (id :: ·)
      else linksIn keys rest

/-- The ids that a header gives under one of some keywords, in order. -/
def headerLinks (keys : List String) (data : Bytes) : Except StorageError (List ObjectId) :=
  linksIn (keys.map Utf8.encode) (Text.splitOn (· == (0x0A : UInt8)) data)

/-- The parents of a commit; other objects have none. -/
def Object.parents (o : Object) : Except StorageError (List ObjectId) :=
  if o.kind = .commit then headerLinks ["parent"] o.data else .ok []

namespace ObjectSource

/-- The parents of the object with an id; one that is missing has none. -/
def parents (source : ObjectSource) (id : ObjectId) : Except StorageError (List ObjectId) :=
  match source.read id with
  | .error e => .error e
  | .ok none => .ok []
  | .ok (some o) => o.parents

/-- The number of ids. -/
def idCount : Nat := Nat.pow 256 20

/-- Searches for a commit among those in a queue and all that come before them. Every step sees a
further id, so `fuel` need not exceed the number of ids. -/
def searchAncestor (source : ObjectSource) (ancestor : ObjectId) :
    Nat → List ObjectId → List ObjectId → Except StorageError Bool
  | 0, _, _ => .ok false
  | fuel + 1, seen, queue =>
    match queue.dropWhile seen.contains with
    | [] => .ok false
    | id :: rest =>
      if id = ancestor then .ok true
      else
        match source.parents id with
        | .error e => .error e
        | .ok parents => searchAncestor source ancestor fuel (id :: seen) (rest ++ parents)

/-- Whether a commit is another one or comes before it. -/
def isAncestor (source : ObjectSource) (ancestor descendant : ObjectId) :
    Except StorageError Bool :=
  searchAncestor source ancestor (idCount + 1) [] [descendant]

end ObjectSource

end GitRemote
