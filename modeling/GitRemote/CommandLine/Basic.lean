import GitRemote.CommandLine.Arguments
import GitRemote.Config.Load
import GitRemote.Push.Plumbing
import GitRemote.Push.Producer
import GitRemote.Session.Basic

/-!
# Runs of the helper

What a run of the helper writes and with which status it exits, given its arguments, its input and
what it finds around it.
-/

namespace GitRemote.CommandLine

/-- What a run of the helper finds around it. -/
structure Surroundings where
  environment : Environment := []
  /-- The content of the configuration file. -/
  configText : Option String := none
  host : Host := {}
  server : Http.Server := {}
  /-- The loose objects of the local repository. -/
  objects : LooseDir := {}

/-- What a run of the helper leaves behind. -/
structure Outcome where
  output : Bytes := []
  /-- The lines of the error output. -/
  messages : List String := []
  exitCode : Nat := 0
  deriving DecidableEq, Repr

namespace Outcome

/-- The outcome of a run that failed. What the server said goes before the message. -/
def failed (output : Bytes) (e : RemoteError) (context : String := "") : Outcome :=
  let said := e.remoteMessage?.elim [] Text.lines
  { output, messages := said ++ ["Error: " ++ context ++ e.message], exitCode := e.exitCode }

end Outcome

/-- Where the configuration file is if it is not given. -/
def defaultConfigFile? (environment : Environment) : Option String :=
  let dir :=
    match environment.lookup "XDG_CONFIG_HOME" with
    | some dir => if dir.startsWith "/" then some dir else none
    | none => none
  (dir <|> (environment.lookup "HOME").map (· ++ "/.config")).map (· ++ "/bough/config.toml")

/-- Serves a remote. -/
def serve (g : General) (s : Surroundings) (config : Config) (url : String) (input : Bytes) : Outcome :=
  match Session.start url config s.server s.host g.gitDir s.objects with
  | .error e => .failed [] e
  | .ok session =>
    match session.run input with
    | (output, .ok (), _) => { output }
    | (output, .error e, _) => .failed output e

/-- What a push reports to people. -/
def report (a : SendPack) (refs : List Ref) (o : PushOutcome) : List String :=
  o.errors.map ReportFault.message ++ o.warnings.map PushOddity.message ++
    if a.helperStatus then [] else (pushReport (a.words.headD "") refs a.verbose).lines

/-- Carries out the child side of a push. -/
def sendPack (g : General) (s : Surroundings) (config : Config) (a : SendPack) (input : Bytes) :
    Outcome :=
  if !a.statelessRpc then
    { messages := ["Error: send-pack is only available with --stateless-rpc"], exitCode := 128 }
  else
    let repo := (⟨config.gitProgram, g.gitDir⟩ : Plumbing).repository s.host
    let run := a.push.run repo (.ofProgram s.host config.gitProgram g.gitDir) input
    match run.result with
    | .error e => { Outcome.failed run.written e with exitCode := 128 }
    | .ok o =>
      { output := run.written
        messages := report a run.refs o
        exitCode := if a.helperStatus || o.success then 0 else 1 }

/-- Runs the helper. -/
def run (g : General) (t : Task) (s : Surroundings) (input : Bytes) : Outcome :=
  match Config.load s.configText g.configFile.isSome s.environment with
  | .error e => { Outcome.failed [] e "loading configuration: " with exitCode := 128 }
  | .ok config =>
    match t with
    | .serve remote url => serve g s config (url.getD remote) input
    | .sendPack a => sendPack g s config a input

end GitRemote.CommandLine
