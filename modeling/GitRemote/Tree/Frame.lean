import GitRemote.Pathspec.Basic

/-!
# Where a walk is

A frame is the chain of directory names from the root down to a directory, with the options of the
walk. `Frame.path` is that directory's path, `Frame.base` the same with a slash behind it, empty at
the root.
-/

namespace GitRemote

/-- What holds for a whole walk. -/
structure WalkOptions where
  /-- The greatest depth that is entered. -/
  maxDepth : Nat := 2048
  /-- Go on after an error of the visitor, and report the first of them at the end. -/
  showAllErrors : Bool := false
  deriving DecidableEq, Repr

/-- A directory that is walked. -/
structure Frame where
  /-- The names from this directory up to the root, innermost first. -/
  names : List Bytes := []
  pathspec : Option Pathspec := none
  options : WalkOptions := {}
  deriving DecidableEq, Repr

namespace Frame

/-- The frame of the directory with the given name. -/
def child (f : Frame) (name : Bytes) : Frame := { f with names := name :: f.names }

/-- The number of directories between the root and this one. -/
def depth (f : Frame) : Nat := f.names.length

/-- The length of the path of some names, innermost first: the names and a slash between two, of
which there is none while nothing stands before it. -/
def pathLength : List Bytes → Nat
  | [] => 0
  | name :: outer =>
    if pathLength outer = 0 then name.length else pathLength outer + 1 + name.length

/-- Writes names, innermost first, in front of `tail` until `free` bytes are used up. An empty name
ends the path, and what is free before it is left blank. -/
def fillPath : List Bytes → Nat → Bytes → Bytes
  | [], free, tail => List.replicate free 0 ++ tail
  | name :: outer, free, tail =>
    if name.isEmpty then List.replicate free 0 ++ tail
    else
      match free - name.length with
      | 0 => name ++ tail
      | left + 1 => fillPath outer left (0x2F :: (name ++ tail))

/-- The path of this directory, without a slash behind it. -/
def path (f : Frame) : Bytes := fillPath f.names (pathLength f.names) []

/-- The path of this directory with a slash behind it; empty at the root. -/
def base (f : Frame) : Bytes := if f.path.isEmpty then [] else f.path ++ [0x2F]

/-- The path of an entry of this directory. -/
def pathOf (f : Frame) (name : Bytes) : Bytes := f.base ++ name

end Frame

end GitRemote
