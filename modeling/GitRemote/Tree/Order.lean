import GitRemote.Text.Utf8

/-!
# The order of tree entries

Trees are stored in the order of `compareStored`: names compare byte by byte, and where one of them
ends a directory goes on with a slash and anything else with NUL. Walks synchronise on plain
`compareNames`, in which a shorter name comes first.
-/

namespace GitRemote

/-- The byte that stands after the end of a stored name. -/
def terminator (isDir : Bool) : UInt8 := if isDir then 0x2F else 0

/-- Compares two entries the way trees are stored, by name and by whether they are directories. -/
def compareStored : Bytes → Bool → Bytes → Bool → Ordering
  | [], aDir, [], bDir => compare (terminator aDir) (terminator bDir)
  | [], aDir, b :: _, _ => compare (terminator aDir) b
  | a :: _, _, [], bDir => compare a (terminator bDir)
  | a :: as, aDir, b :: bs, bDir => (compare a b).then (compareStored as aDir bs bDir)

/-- Compares two names as plain bytes; of two names that agree up to an end, the shorter is less. -/
def compareNames : Bytes → Bytes → Ordering
  | [], [] => .eq
  | [], _ :: _ => .lt
  | _ :: _, [] => .gt
  | a :: as, b :: bs => (compare a b).then (compareNames as bs)

end GitRemote
