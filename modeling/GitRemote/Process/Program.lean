import GitRemote.Process.Command
import GitRemote.Wire.Error

/-!
# Running programs

A program is known by what it does: given the input that has reached it so far, the effects it has
had by then, in order. With more input the earlier effects stay and more may follow. A host holds the
files that programs leave and knows which programs can be run.
-/

namespace GitRemote

/-- What has reached a program's standard input. -/
structure ProgramInput where
  data : Bytes := []
  /-- No more will come. -/
  closed : Bool := true
  deriving DecidableEq, Repr

/-- One effect of a program. -/
inductive Effect where
  | output (b : Bytes)
  | errorOutput (b : Bytes)
  /-- Makes a file empty. -/
  | create (path : String)
  | append (path : String) (b : Bytes)
  | remove (path : String)
  | makeDirectory (path : String)
  deriving DecidableEq, Repr

/-- Where a program has come to. -/
inductive Ending where
  /-- It needs more input. -/
  | waiting
  | exited (code : Nat)
  | killed (signal : Nat)
  deriving DecidableEq, Repr

/-- What a program does on some input. -/
structure ProgramRun where
  effects : List Effect
  ending : Ending
  /-- How many bytes of the input it has not read. -/
  unread : Nat := 0
  deriving DecidableEq, Repr

/-- How many bytes a pipe holds that were written to it and not read. -/
def pipeCapacity : Nat := 65536

/-- Whether a program has ended before it read all of its input. Which of the bytes that it left could
still be written depends on how soon it ended; it is taken to have ended before any of them was. -/
def ProgramRun.isBroken (r : ProgramRun) : Bool := r.ending != .waiting && 0 < r.unread

/-- What is said where a program has ended before it could be given all of its input. -/
def brokenPipe : String := "Broken pipe (os error 32)"

/-- What a program does, for every input. -/
abbrev Program := ProgramInput → ProgramRun

/-- How a program failed, once it has ended. A program that would wait for input that never comes
counts as having ended well. -/
def Ending.failure? : Ending → Option ProgramFailure
  | .waiting => none
  | .exited code => if code = 0 then none else some (.exited code)
  | .killed signal => some (.killed signal)

/-- The standard output among some effects. -/
def outputOf : List Effect → Bytes
  | [] => []
  | .output b :: rest => b ++ outputOf rest
  | _ :: rest => outputOf rest

/-- The error output among some effects. -/
def errorOutputOf : List Effect → Bytes
  | [] => []
  | .errorOutput b :: rest => b ++ errorOutputOf rest
  | _ :: rest => errorOutputOf rest

/-- Whether a program that is given `input`, of whose output `taken` bytes were read, comes to stand: the
pipe of its output is full, more of the input than a pipe holds is not read, and who writes the input
does not read the output meanwhile. -/
def Program.stalls (p : Program) (taken : Nat) (input : Bytes) : Bool :=
  let early := input.take (input.length - pipeCapacity - 1)
  pipeCapacity < input.length &&
    taken + pipeCapacity < (outputOf (p { data := early, closed := false }).effects).length

/-- A program takes what it is given if it neither comes to stand nor ends before it has read all. -/
def Program.Takes (p : Program) (taken : Nat) (input : Bytes) : Prop :=
  p.stalls taken input = false ∧ (p { data := input, closed := false }).isBroken = false

instance (p : Program) (taken : Nat) (input : Bytes) : Decidable (p.Takes taken input) :=
  inferInstanceAs (Decidable (_ ∧ _))

/-- Files by path. -/
structure Files where
  entries : List (String × Bytes) := []
  /-- Directories that were made, besides those in which files are. -/
  directories : List String := []
  deriving DecidableEq, Repr

namespace Files

/-- The content of a file. -/
def find? (fs : Files) (path : String) : Option Bytes := fs.entries.lookup path

/-- Sets the content of a file. -/
def set (fs : Files) (path : String) (b : Bytes) : Files :=
  { fs with entries := (path, b) :: fs.entries.filter (·.1 != path) }

/-- Whether a path is that of a directory. -/
def hasDirectory (fs : Files) (path : String) : Bool :=
  fs.directories.contains path || fs.entries.any fun (p, _) => p.startsWith (path ++ "/")

/-- Takes away what is at a path or below it. -/
def remove (fs : Files) (path : String) : Files :=
  let gone (p : String) : Bool := p == path || p.startsWith (path ++ "/")
  { entries := fs.entries.filter fun (p, _) => !gone p
    directories := fs.directories.filter fun p => !gone p }

/-- The files after an effect. -/
def apply (fs : Files) : Effect → Files
  | .create path => fs.set path []
  | .append path b => fs.set path ((fs.find? path).getD [] ++ b)
  | .remove path => fs.remove path
  | .makeDirectory path => { fs with directories := path :: fs.directories }
  | _ => fs

end Files

/-- Files, and the programs that can be run. -/
structure Host where
  files : Files := {}
  /-- The program that a command runs when it is started among some files, if it can be run. -/
  load : Command → Files → Option Program := fun _ _ => none

namespace Host

/-- The host after some effects. -/
def apply (h : Host) (effects : List Effect) : Host :=
  { h with files := effects.foldl Files.apply h.files }

/-- Whether the path of a program leads through a file as if it were a directory. -/
def leadsThroughFile (h : Host) (program : String) : Bool :=
  ("/dev/null" :: h.files.entries.map (·.1)).any fun path => program.startsWith (path ++ "/")

/-- The program of a command. -/
def start (h : Host) (c : Command) : Except WireError Program :=
  match c.refusal? with
  | some reason => .error (.io reason)
  | none =>
    match h.load c h.files with
    | some p => .ok p
    | none =>
      if h.leadsThroughFile c.program then .error (.io "Not a directory (os error 20)")
      else .error (.program c.program .notFound)

/-- How the run of a command ended. -/
def verdict (c : Command) (ending : Ending) : Except WireError Unit :=
  match ending.failure? with
  | some f => .error (.program c.program f)
  | none => .ok ()

/-- Runs a command on all of its input: its output and how it ended, unless it cannot be run. -/
def run (h : Host) (c : Command) (input : Bytes) :
    Except WireError (Bytes × Except WireError Unit) × Host :=
  match h.start c with
  | .error e => (.error e, h)
  | .ok p =>
    let r := p { data := input }
    (.ok (outputOf r.effects, verdict c r.ending), h.apply r.effects)

end Host

end GitRemote
