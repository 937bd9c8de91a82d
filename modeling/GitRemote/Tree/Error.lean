import GitRemote.Object.Error
import GitRemote.Pathspec.Error
import GitRemote.Tree.Entry

/-!
# Errors of tree operations

What can go wrong while trees are decoded, walked and compared, with the message for each.
-/

namespace GitRemote

/-- Why an operation on trees failed. -/
inductive TreeError where
  /-- The entry at an offset cannot be decoded. -/
  | corrupt (offset : Nat) (fault : EntryFault)
  /-- Two neighbours are not in stored order. -/
  | outOfOrder (before after : String)
  /-- More trees than one walk can hold. -/
  | tooManyTrees (n : Nat)
  /-- The walk is deeper than its limit. -/
  | tooDeep (limit : Nat)
  | pathspec (cause : PathspecError)
  | storage (cause : StorageError)
  /-- A visitor left everything it was offered once too often. -/
  | stalled
  deriving DecidableEq, Repr

/-- The message for an error. -/
def TreeError.message : TreeError → String
  | .corrupt offset fault => "corrupt tree at offset " ++ toString offset ++ ": " ++ fault.message
  | .outOfOrder before after =>
    "tree entries out of order: " ++ Text.literal before ++ " sorts after " ++ Text.literal after
  | .tooManyTrees n => "cannot traverse " ++ toString n ++ " trees at once"
  | .tooDeep limit => "exceeded maximum allowed tree depth (" ++ toString limit ++ ")"
  | .pathspec cause => "invalid pathspec: " ++ cause.message
  | .storage cause => cause.message
  | .stalled => "the walk makes no progress"

end GitRemote
