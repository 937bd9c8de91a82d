import GitRemote.Process.Program

/-!
# Running children

A program that was started and has not ended: the input it was given so far, and whether more can be
given. Its input and its output are pipes, and only one of them is looked after at a time.
-/

namespace GitRemote

/-- A program that runs. -/
structure Child where
  command : Command
  program : Program
  input : ProgramInput

namespace Child

/-- Starts a command, with a pipe as its input or with no input at all. -/
def start (h : Host) (c : Command) (piped : Bool) : Except WireError Child :=
  (h.start c).map fun p => ⟨c, p, { closed := !piped }⟩

/-- Tells a child that there is no more input. -/
def close (c : Child) : Child := { c with input := { c.input with closed := true } }

/-- What a child has done so far. -/
def soFar (c : Child) : ProgramRun := c.program c.input

/-- Gives input to a child, which must not have been told that there is no more. It fails where the child
ends before it has read all, and never comes back where the child, of whose output `taken` bytes were
read, comes to stand. -/
def write (c : Child) (taken : Nat) (data : Bytes) : Except WireError Unit × Child :=
  if c.input.closed then (.error (.io "child standard input is closed"), c)
  else
    let c := { c with input := { c.input with data := c.input.data ++ data } }
    if c.program.stalls taken c.input.data then (.error .stalled, c)
    else (if c.soFar.isBroken then .error (.io brokenPipe) else .ok (), c)

/-- How a child ended, once it was told that there is no more input. -/
def verdict (c : Child) : Except WireError Unit := Host.verdict c.command c.close.soFar.ending

end Child

end GitRemote
