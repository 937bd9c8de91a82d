import GitRemote.CommandLine.Basic

/-!
# The program

Reads arguments, environment, configuration and input, runs the helper, and writes what comes of it.
The program has no network of its own and starts no other programs.
-/

namespace GitRemote.CommandLine

/-- The variables of the environment that matter. -/
def knownVariables : List String :=
  ["HOME", "XDG_CONFIG_HOME", "GIT_DIR", "GIT_SMART_HTTP", "BOUGH_POST_BUFFER", "BOUGH_USER_AGENT",
    "BOUGH_SMART_HTTP", "BOUGH_GIT_PROGRAM", "BOUGH_SEND_PACK_PROGRAM", "BOUGH_TIMEOUT_SECS",
    "BOUGH_GZIP_THRESHOLD", "BOUGH_MAX_TREE_DEPTH", "BOUGH_CREDENTIAL_HELPER"]

/-- The environment. -/
def readEnvironment : IO Environment :=
  knownVariables.filterMapM fun name => return (← IO.getEnv name).map (name, ·)

/-- The content of a file, if it can be read. -/
def readText (path : String) : IO (Option String) := do
  try return some (← IO.FS.readFile path) catch _ => return none

/-- All that is left of a stream. -/
partial def readAll (stream : IO.FS.Stream) (acc : ByteArray) : IO ByteArray := do
  let piece ← stream.read 65536
  if piece.isEmpty then return acc else readAll stream (acc ++ piece)

end GitRemote.CommandLine

open GitRemote in
/-- Runs the helper with its arguments. -/
def main (args : List String) : IO UInt32 := do
  let environment ← CommandLine.readEnvironment
  match CommandLine.parse { gitDir := environment.lookup "GIT_DIR" } [] args with
  | .error e =>
    IO.eprintln ("error: " ++ e.message)
    return 2
  | .ok (general, task) =>
    let path? := general.configFile <|> CommandLine.defaultConfigFile? environment
    let configText ← path?.elim (pure none) CommandLine.readText
    let input ← CommandLine.readAll (← IO.getStdin) .empty
    let outcome := CommandLine.run general task { environment, configText } input.data.toList
    let out ← IO.getStdout
    out.write ⟨outcome.output.toArray⟩
    out.flush
    for message in outcome.messages do IO.eprintln message
    return outcome.exitCode.toUInt32
