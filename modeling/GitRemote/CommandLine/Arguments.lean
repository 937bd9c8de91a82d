import GitRemote.Push.Stateless

/-!
# Arguments

The helper is run with the name of a remote and its URL. It is also run, by itself, as the child side
of a push.
-/

namespace GitRemote.CommandLine

/-- What holds for every way to run the helper. -/
structure General where
  /-- How much to log. -/
  verbosity : Nat := 0
  gitDir : Option String := none
  configFile : Option String := none
  deriving DecidableEq, Repr

/-- The arguments of the child side of a push. -/
structure SendPack where
  statelessRpc : Bool := false
  helperStatus : Bool := false
  thin : Bool := false
  dryRun : Bool := false
  force : Bool := false
  quiet : Bool := false
  verbose : Bool := false
  progress : Bool := false
  /-- The URL, for the report, and the refspecs. -/
  words : List String := []
  deriving DecidableEq, Repr

/-- What the helper is run for. -/
inductive Task where
  | serve (remote : String) (url : Option String)
  | sendPack (args : SendPack)
  deriving DecidableEq, Repr

/-- What is wrong with the arguments. -/
inductive UsageError where
  | unexpected (arg : String)
  | missingValue (option : String)
  | missingRemote
  | missingUrl
  deriving DecidableEq, Repr

/-- The message for faulty arguments. -/
def UsageError.message : UsageError → String
  | .unexpected arg => "unexpected argument '" ++ arg ++ "' found"
  | .missingValue option => "a value is required for '" ++ option ++ "' but none was supplied"
  | .missingRemote => "the following required arguments were not provided: <REMOTE>"
  | .missingUrl => "the following required arguments were not provided: <URL>"

/-- Whether an argument is an option and no word. -/
def isOption (arg : String) : Bool := arg.startsWith "-" && arg != "-"

/-- The arguments of the child side of a push with one more option. -/
def SendPack.withOption (a : SendPack) (arg : String) : Except UsageError SendPack :=
  match arg with
  | "--stateless-rpc" => .ok { a with statelessRpc := true }
  | "--helper-status" => .ok { a with helperStatus := true }
  | "--thin" => .ok { a with thin := true }
  | "--dry-run" => .ok { a with dryRun := true }
  | "--force" | "-f" => .ok { a with force := true }
  | "--quiet" | "-q" => .ok { a with quiet := true }
  | "--verbose" => .ok { a with verbose := true }
  | "--progress" => .ok { a with progress := true }
  | "--no-progress" => .ok { a with progress := false }
  | _ => .error (.unexpected arg)

/-- Reads the arguments of the child side of a push. After two dashes all are words. -/
def SendPack.parse (a : SendPack) : List String → Except UsageError SendPack
  | [] => if a.words.isEmpty then .error .missingUrl else .ok a
  | "--" :: rest =>
    let words := a.words ++ rest
    if words.isEmpty then .error .missingUrl else .ok { a with words }
  | arg :: rest =>
    if isOption arg then
      match a.withOption arg with
      | .error e => .error e
      | .ok a => a.parse rest
    else SendPack.parse { a with words := a.words ++ [arg] } rest

/-- The refspecs, all of them forced if that was asked for. -/
def SendPack.specs (a : SendPack) : List String :=
  (a.words.drop 1).map fun spec => if a.force && !spec.startsWith "+" then "+" ++ spec else spec

/-- The push that is asked for. -/
def SendPack.push (a : SendPack) : StatelessPush :=
  { specs := a.specs
    helperStatus := a.helperStatus
    args :=
      { verbose := a.verbose, quiet := a.quiet, progress := a.progress, dryRun := a.dryRun
        thinPack := a.thin, stateless := true } }

/-- The number of letters in an option that asks for more to be logged. -/
def verbosityOf? (arg : String) : Option Nat :=
  if arg = "--verbose" then some 1
  else
    match arg.toList with
    | '-' :: letters => if letters.all (· == 'v') && !letters.isEmpty then some letters.length else none
    | _ => none

/-- The task that the words make. -/
def taskOf : List String → Except UsageError Task
  | [] => .error .missingRemote
  | [remote] => .ok (.serve remote none)
  | [remote, url] => .ok (.serve remote (some url))
  | _ :: _ :: word :: _ => .error (.unexpected word)

/-- Reads arguments. -/
def parse (g : General) (words : List String) : List String → Except UsageError (General × Task)
  | [] => (taskOf words).map (g, ·)
  | "--" :: rest => (taskOf (words ++ rest)).map (g, ·)
  | "send-pack" :: rest => (SendPack.parse {} rest).map fun a => (g, .sendPack a)
  | "--git-dir" :: value :: rest => parse { g with gitDir := some value } words rest
  | "--config" :: value :: rest => parse { g with configFile := some value } words rest
  | arg :: rest =>
    if arg = "--git-dir" || arg = "--config" then .error (.missingValue arg)
    else
      match Text.stripStart? "--git-dir=" arg, Text.stripStart? "--config=" arg, verbosityOf? arg with
      | some value, _, _ => parse { g with gitDir := some value } words rest
      | none, some value, _ => parse { g with configFile := some value } words rest
      | none, none, some n => parse { g with verbosity := g.verbosity + n } words rest
      | none, none, none =>
        if isOption arg then .error (.unexpected arg) else parse g (words ++ [arg]) rest

end GitRemote.CommandLine
