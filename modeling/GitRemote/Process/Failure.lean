import GitRemote.Text.Number

/-!
# How a program ends

A program that was run exits with a code or dies of a signal; one that cannot be run does neither.
-/

namespace GitRemote

/-- How a program fails. -/
inductive ProgramFailure where
  | notFound
  | exited (code : Int)
  | killed (signal : Nat)
  deriving DecidableEq, Repr

namespace ProgramFailure

/-- The exit code that a shell would give. -/
def exitCode : ProgramFailure → Int
  | .notFound => 127
  | .exited code => code
  | .killed signal => 128 + signal

/-- The message for a failure. -/
def message : ProgramFailure → String
  | .notFound => "cannot run program"
  | .exited code => "exited with status " ++ toString code
  | .killed signal => "died of signal " ++ toString signal

/-- Reads a wait status: the low seven bits hold a signal, or zero for an exit, whose code is in the
byte above. A program that has only stopped counts as failed with the code -1. -/
def ofWaitStatus? (raw : Nat) : Option ProgramFailure :=
  if raw = 0 then none
  else if raw % 128 = 0 then some (.exited (raw / 256 % 256))
  else if raw % 128 = 127 then some (.exited (-1))
  else some (.killed (raw % 128))

end ProgramFailure

end GitRemote
