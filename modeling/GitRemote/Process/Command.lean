import GitRemote.Text.Blank

/-!
# Command lines

A program with its arguments, and what it is given besides: variables of the environment and a
directory to run in.
-/

namespace GitRemote

/-- A command line. -/
structure Command where
  program : String
  args : List String := []
  env : List (String × String) := []
  directory : Option String := none
  deriving DecidableEq, Repr

namespace Command

/-- The command with one more argument. -/
def arg (c : Command) (a : String) : Command := { c with args := c.args ++ [a] }

/-- The command with one more argument if a condition holds. -/
def argIf (c : Command) (b : Bool) (a : String) : Command := if b then c.arg a else c

/-- The command with more arguments. -/
def withArgs (c : Command) (args : List String) : Command := { c with args := c.args ++ args }

/-- The command in the repository at a directory, if one is given. -/
def inRepository (c : Command) (gitDir : Option String) : Command :=
  match gitDir with
  | some dir => { c with env := c.env ++ [("GIT_DIR", dir)] }
  | none => c

/-- The texts that a program is started with. -/
def texts (c : Command) : List String :=
  c.program :: c.args ++ c.env.map (fun (name, value) => name ++ "=" ++ value)

/-- The length in bytes from which on the name of a file is too long. -/
def nameBound : Nat := 256

/-- The length in bytes from which on a path is too long. -/
def pathBound : Nat := 4096

/-- The length in bytes from which on a text is too long to start a program with. -/
def textBound : Nat := 131072

/-- Why no program at all can be started for a command. -/
def refusal? (c : Command) : Option String :=
  if (c.texts ++ c.directory.toList).any (·.toList.contains '\x00') then
    some "nul byte found in provided data"
  else if pathBound ≤ c.program.utf8ByteSize ||
      (!c.program.toList.contains '/' && nameBound ≤ c.program.utf8ByteSize) then
    some "File name too long (os error 36)"
  else if c.texts.any (textBound ≤ ·.utf8ByteSize) then
    some "Argument list too long (os error 7)"
  else none

/-- The command line as text, with blanks between its words. -/
def text (c : Command) : String := " ".intercalate (c.program :: c.args)

end Command

end GitRemote
