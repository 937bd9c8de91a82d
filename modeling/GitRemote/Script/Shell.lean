import GitRemote.Process.Program
import GitRemote.Script.Format
import GitRemote.Script.Pattern
import GitRemote.Script.Term

/-!
# Running shells

The state of a shell that runs a script: its parameters and settings, the input that has reached it,
where its output goes, and the effects it has had.

Like all of `Script` it only serves to run commands: no result is about it, and none needs it.
-/

namespace GitRemote.Script

/-- Where output goes. -/
inductive Sink where
  | output
  | errorOutput
  | file (path : String)
  | discard
  /-- Kept, for a substitution or a pipe. -/
  | held
  | closed
  deriving DecidableEq, Repr

/-- What a running script is to do next. The loops that are left or go on are counted from the inner
one, which is one. -/
inductive Flow where
  | next
  | exit
  | killed (signal : Nat)
  | waiting
  | leaveLoop (n : Nat)
  | nextTurn (n : Nat)
  | leaveFunction
  deriving DecidableEq, Repr

/-- A running shell. -/
structure Shell where
  /-- The name of the script. -/
  name : Bytes := []
  args : List Bytes := []
  bindings : List (String × Bytes) := []
  /-- The names whose values programs are given. -/
  exported : List String := []
  functions : List (String × Term) := []
  /-- What is run on a signal, or at the end of the script for the number zero. -/
  traps : List (Nat × Bytes) := []
  exitOnError : Bool := false
  unsetIsError : Bool := false
  noFileNames : Bool := false
  /-- Commands are shown as they are run. -/
  tracing : Bool := false
  /-- The text being run was put together by a command. -/
  composed : Bool := false
  /-- A failure is part of a condition. -/
  guarded : Bool := false
  /-- How many loops are being run. -/
  loops : Nat := 0
  /-- The values that names had before they became local. -/
  saved : List (String × Option Bytes) := []
  /-- The status of the last command in the background. -/
  background : Nat := 0
  /-- The number of the first line of the text being run, and how many line ends it has. -/
  firstLine : Nat := 1
  lineEnds : Nat := 0
  /-- How many line ends come after the command being run. -/
  below : Nat := 0
  /-- A substitution was made for the command being run. -/
  substituted : Bool := false
  directory : String := "/"
  files : Files := {}
  input : Bytes := []
  inputClosed : Bool := true
  /-- The input is a file, of which only what was used counts as read. -/
  inputIsFile : Bool := false
  output : Sink := .output
  errorOutput : Sink := .errorOutput
  /-- The descriptors beyond the standard ones. -/
  others : List (Nat × Sink) := []
  held : Bytes := []
  status : Nat := 0
  effects : List Effect := []

namespace Shell

/-- Has an effect. -/
def perform (sh : Shell) (e : Effect) : Shell :=
  { sh with effects := sh.effects ++ [e], files := sh.files.apply e }

/-- Writes to a sink. -/
def writeTo (sh : Shell) (sink : Sink) (b : Bytes) : Shell :=
  if b.isEmpty then sh
  else
    match sink with
    | .output => sh.perform (.output b)
    | .errorOutput => sh.perform (.errorOutput b)
    | .file path => sh.perform (.append path b)
    | .discard => sh
    | .held => { sh with held := sh.held ++ b }
    | .closed => sh

/-- The sink of a descriptor. -/
def sink? (sh : Shell) (descriptor : Nat) : Option Sink :=
  match descriptor with
  | 0 => none
  | 1 => some sh.output
  | 2 => some sh.errorOutput
  | n => sh.others.lookup n

/-- Connects a descriptor to a sink. -/
def connect (sh : Shell) (descriptor : Nat) (sink : Sink) : Shell :=
  match descriptor with
  | 0 => sh
  | 1 => { sh with output := sink }
  | 2 => { sh with errorOutput := sink }
  | n => { sh with others := (n, sink) :: sh.others.filter (·.1 != n) }

/-- Ends a command with a status. -/
def withStatus (sh : Shell) (n : Nat) : Flow × Shell := (.next, { sh with status := n })

/-- Prints something and ends a command with a status; that fails where there is nowhere to print. -/
def print (sh : Shell) (b : Bytes) (n : Nat) : Flow × Shell :=
  if sh.output = .closed ∧ !b.isEmpty then sh.withStatus (max n 1)
  else (sh.writeTo sh.output b).withStatus n

/-- A utility complains, and ends with a status. -/
def complain (sh : Shell) (text : String) (n : Nat) : Flow × Shell :=
  (sh.writeTo sh.errorOutput (bytesOf (text ++ "\n"))).withStatus n

/-- The line of the command being run. -/
def line (sh : Shell) : Nat := sh.firstLine + (sh.lineEnds - sh.below)

/-- The shell itself complains. -/
def report (sh : Shell) (text : String) (n : Nat) : Flow × Shell :=
  let place := Utf8.decodeLossy sh.name ++ ": " ++ toString sh.line ++ ": "
  sh.complain (place ++ (if sh.composed then "eval: " else "") ++ text) n

/-- The shell complains and ends. -/
def abort (sh : Shell) (text : String) : Flow × Shell := (.exit, (sh.report text 2).2)

/-- The components of a path without those that stand for the same or the upper directory. -/
def components : List String → List String → List String
  | done, [] => done.reverse
  | done, c :: cs =>
    if c = "" || c = "." then components done cs
    else if c = ".." then components (done.drop 1) cs
    else components (c :: done) cs

/-- Whether a path needs no directory to start from: it starts with a slash, or with a directory whose
name starts with an at sign. -/
def isWhole (path : String) : Bool := path.startsWith "/" || path.startsWith "@"

/-- A path as the script means it. -/
def resolve (sh : Shell) (b : Bytes) : String :=
  let path := Utf8.decodeLossy b
  let path := if isWhole path then path else sh.directory ++ "/" ++ path
  let cs := "/".intercalate (components [] (path.splitOn "/"))
  if path.startsWith "/" then "/" ++ cs else cs

/-- The path of the directory that a path is in. -/
def parent (path : String) : String :=
  "/".intercalate (path.splitOn "/").dropLast

/-- Directories of the system. -/
def systemDirectories : List String :=
  ["", "/", "/tmp", "/bin", "/usr", "/usr/bin", "/etc", "/dev", "/var", "/var/tmp", "/home", "/root", "/proc"]

/-- Whether there is a directory at a path. -/
def hasDirectory (sh : Shell) (path : String) : Bool :=
  systemDirectories.contains path || path == sh.directory || sh.files.hasDirectory path

/-- Whether a file can be made at a path. What is below a named directory is taken to be there. -/
def mayCreate (sh : Shell) (path : String) : Bool :=
  !path.startsWith "/" || sh.hasDirectory (parent path)

/-- The process number of the shell. -/
def ownNumber : Bytes := bytesOf "4242"

/-- The process number of the last command in the background. -/
def backgroundNumber : Bytes := bytesOf "4243"

/-- The bytes that separate fields unless others are set. -/
def standardSeparators : Bytes := [0x20, 0x09, 0x0A]

/-- The bytes that separate fields. -/
def separators (sh : Shell) : Bytes := (sh.bindings.lookup "IFS").getD standardSeparators

/-- All arguments as one value. -/
def allArgs (sh : Shell) : Bytes := (sh.separators.take 1).intercalate sh.args

/-- The value of a parameter. -/
def value? (sh : Shell) (name : String) : Option Bytes :=
  match name with
  | "?" => some (bytesOf (toString sh.status))
  | "#" => some (bytesOf (toString sh.args.length))
  | "@" => if sh.args.isEmpty then none else some (joinArgs sh.args)
  | "*" => if sh.args.isEmpty then none else some sh.allArgs
  | "$" => some ownNumber
  | "!" => some backgroundNumber
  | "-" => some (if sh.exitOnError then bytesOf "e" else [])
  | "0" => some sh.name
  | _ =>
    match name.toNat? with
    | some n => sh.args[n - 1]?
    | none => sh.bindings.lookup name

/-- Sets a variable. -/
def assign (sh : Shell) (name : String) (v : Bytes) : Shell :=
  { sh with bindings := (name, v) :: sh.bindings.filter (·.1 != name) }

/-- Gives a variable the value it had, or none. -/
def restore (sh : Shell) (name : String) (v : Option Bytes) : Shell :=
  match v with
  | some v => sh.assign name v
  | none => { sh with bindings := sh.bindings.filter (·.1 != name) }

/-- Makes a variable known to programs. -/
def mark (sh : Shell) (name : String) : Shell :=
  { sh with exported := name :: sh.exported.filter (· != name) }

/-- The names that are directly in a directory. -/
def namesIn (sh : Shell) (directory : String) : List Bytes :=
  let paths := sh.files.entries.map (·.1) ++ sh.files.directories
  let names := paths.filterMap fun p =>
    if p.startsWith (directory ++ "/") then
      ((p.toList.drop (directory.length + 1)).takeWhile (· != '/'))
    else none
  let names := (names.map fun n => Utf8.encode (String.ofList n)).filter (!·.isEmpty)
  (names.eraseDups).mergeSort fun a b => decide (a ≤ b)

/-- The paths that a pattern stands for, which may differ in their last component; the pattern itself
if there is none. -/
def fileNames (sh : Shell) (p : List PatternByte) : List Bytes :=
  let text := p.map (·.1)
  if sh.noFileNames || !isPattern p then [text]
  else
    let last := (p.reverse.takeWhile (·.1 != 0x2F)).reverse
    let lead := p.take (p.length - last.length)
    if isPattern lead then [text]
    else
      let lead := lead.map (·.1)
      let directory := sh.resolve (if lead.isEmpty then bytesOf "." else lead)
      let dotted := last.head? == some (0x2E, false)
      let names := (sh.namesIn directory).filter fun n =>
        (dotted || n.head? != some 0x2E) && patternMatch last n
      if names.isEmpty then [text] else names.map (lead ++ ·)

/-- A part of a script that runs by itself leaves the shell as it was but for these. -/
def rejoin (inner outer : Shell) : Shell :=
  { outer with
    files := inner.files
    input := inner.input
    effects := inner.effects
    held := inner.held
    status := inner.status }

/-- The shell in which such a part runs: signals have their usual effect unless they are ignored. -/
def part (sh : Shell) : Shell := { sh with traps := sh.traps.filter (·.2.isEmpty) }

/-- The shell of another script that a script runs. -/
def other (sh : Shell) (name : Bytes) (args : List Bytes) (firstLine : Nat) : Shell :=
  { name, args, firstLine
    bindings :=
      ("IFS", standardSeparators) :: sh.bindings.filter fun (n, _) => sh.exported.contains n && n != "IFS"
    exported := sh.exported
    traps := sh.traps.filter (·.2.isEmpty)
    directory := sh.directory
    files := sh.files
    input := sh.input
    inputClosed := sh.inputClosed
    inputIsFile := sh.inputIsFile
    output := sh.output
    errorOutput := sh.errorOutput
    others := sh.others
    held := sh.held
    effects := sh.effects }

end Shell

/-- Leaving a part that runs by itself ends that part only. -/
def Flow.rejoin : Flow → Flow
  | .killed signal => .killed signal
  | .waiting => .waiting
  | _ => .next

/-- The fields of a word while it is expanded: those that are complete, and the one begun. -/
structure Fields where
  complete : List (List PatternByte) := []
  begun : Option (List PatternByte) := none
  /-- A blank completed the last field, and a separator may still follow it. -/
  afterBlank : Bool := false

namespace Fields

/-- Appends to the field begun. -/
def append (f : Fields) (quoted : Bool) (b : Bytes) : Fields :=
  { f with begun := some (f.begun.getD [] ++ b.map fun x => (x, quoted)), afterBlank := false }

/-- Completes the field begun. -/
def split (f : Fields) : Fields :=
  match f.begun with
  | some b => { complete := f.complete ++ [b] }
  | none => { f with afterBlank := false }

/-- Reads a separator: blanks end a field, other separators end one even if it is empty. -/
def separate (f : Fields) (b : UInt8) : Fields :=
  let blank := b == 0x20 || b == 0x09 || b == 0x0A
  match f.begun with
  | some _ => { f.split with afterBlank := blank }
  | none =>
    if blank then f
    else if f.afterBlank then { f with afterBlank := false }
    else { f with complete := f.complete ++ [[]] }

/-- Appends bytes, of which separators split fields. -/
def appendSplit (separators : Bytes) (f : Fields) (b : Bytes) : Fields :=
  b.foldl (fun f x => if separators.contains x then f.separate x else f.append false [x]) f

/-- Appends fields that stay apart. -/
def appendEach (f : Fields) : List Bytes → Fields
  | [] => f
  | [b] => f.append true b
  | b :: rest => appendEach (f.append true b).split rest

/-- Appends fields that stay apart and are split further. -/
def appendEachSplit (separators : Bytes) (f : Fields) : List Bytes → Fields
  | [] => f
  | [b] => f.appendSplit separators b
  | b :: rest => appendEachSplit separators (f.appendSplit separators b).split rest

/-- All fields. -/
def all (f : Fields) : List (List PatternByte) := f.split.complete

end Fields

end GitRemote.Script
