import GitRemote.Text.Literal

/-!
# Errors of pathspecs

Why a text is not a pathspec element.
-/

namespace GitRemote

/-- Why a text is not a pathspec element. -/
inductive PathspecError where
  /-- No such magic word. -/
  | unknownMagic (word : String)
  /-- The list of magic words has no end. -/
  | unclosedMagic (spec : String)
  /-- The two words exclude each other. -/
  | literalGlob (spec : String)
  deriving DecidableEq, Repr

/-- The message for an error. -/
def PathspecError.message : PathspecError → String
  | .unknownMagic word => "invalid pathspec magic '" ++ word ++ "'"
  | .unclosedMagic spec => "missing ')' at the end of pathspec magic in '" ++ spec ++ "'"
  | .literalGlob spec => "'literal' and 'glob' are incompatible in '" ++ spec ++ "'"

end GitRemote
