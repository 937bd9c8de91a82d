import GitRemote.Pathspec.Item

/-!
# Pathspecs

A pathspec is a list of items with the flags that hold for all of them, and the four answers it can
give about an entry of a directory.
-/

namespace GitRemote

/-- How interesting an entry is, from least to most. -/
inductive Interest where
  /-- Neither the entry nor any later one in its directory can match. -/
  | allNotInteresting
  /-- The entry does not match; later ones may. -/
  | notInteresting
  /-- The entry matches, or something below it may. -/
  | interesting
  /-- The entry and all later ones in its directory match. -/
  | allInteresting
  deriving DecidableEq, Repr

/-- Whether the entry is to be visited. -/
def Interest.isInteresting : Interest → Bool
  | .allNotInteresting => false
  | .notInteresting => false
  | .interesting => true
  | .allInteresting => true

/-- A list of items and the flags for all of them. -/
structure Pathspec where
  items : List PathspecItem := []
  /-- Directories are entered to find matches below them. -/
  recursive : Bool := false
  /-- How deep below a matched directory entries still match; for recursive pathspecs only. -/
  maxDepth : Option Nat := none
  deriving DecidableEq, Repr

namespace Pathspec

/-- The pathspec of some items. Where all of them exclude, there is one more that matches everything,
so that they have something to remove from. -/
def ofItems (items : List PathspecItem) : Pathspec :=
  if !items.isEmpty && items.all (·.magic.exclude) then
    { items := items ++ [.ofPattern [] {}] }
  else { items }

/-- Reads every element of a list. -/
def parseItems : List String → Except PathspecError (List PathspecItem)
  | [] => .ok []
  | spec :: rest =>
    match PathspecItem.parse spec with
    | .error e => .error e
    | .ok item => (parseItems rest).map (item :: ·)

/-- The pathspec of some elements. -/
def parse (specs : List String) : Except PathspecError Pathspec :=
  (parseItems specs).map ofItems

/-- Whether some item has a wildcard. -/
def hasWildcard (spec : Pathspec) : Bool := spec.items.any (·.hasWildcard)

/-- Whether some item excludes. -/
def hasExclude (spec : Pathspec) : Bool := spec.items.any (·.magic.exclude)

/-- The depth limit that holds. -/
def depthLimit (spec : Pathspec) : Option Nat := if spec.recursive then spec.maxDepth else none

end Pathspec

end GitRemote
