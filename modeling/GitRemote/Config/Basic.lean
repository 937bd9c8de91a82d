import GitRemote.Process.Command
import GitRemote.Remote.Options

/-!
# Configuration

The settings of the helper, and the commands that follow from them and from a session's options.
-/

namespace GitRemote

/-- The settings of the helper. -/
structure Config where
  /-- The greatest request that is collected before it is sent. -/
  postBuffer : Nat := 1048576
  userAgent : String := "bough/0.1.0"
  /-- Ask servers for the smart protocol. -/
  smartHttp : Bool := true
  gitProgram : String := "git"
  /-- The program behind a push; nothing stands for the helper itself. -/
  sendPackProgram : String := ""
  /-- The time that a request may take; zero is any. -/
  timeoutSeconds : Nat := 0
  /-- Requests above this size are compressed. -/
  gzipThreshold : Nat := 1024
  /-- The greatest depth of trees that are fetched file by file. -/
  maxTreeDepth : Nat := 2048
  credentialHelper : String := "git credential"
  deriving DecidableEq, Repr

namespace Config

/-- The words of the credential helper. -/
def credentialCommand (c : Config) : List String := Text.words c.credentialHelper

/-- The program behind a push. -/
def pushProgram (c : Config) : String :=
  if c.sendPackProgram.isEmpty then "git-remote-bough" else c.sendPackProgram

/-- Whether a text turns a switch off. -/
def turnsOff (value : String) : Bool :=
  ["0", "false", "no", "off"].contains (Text.lowerAscii (Text.trim value))

/-- The settings after the switch of the environment, which can only turn the smart protocol off. -/
def withSwitch (c : Config) (value : Option String) : Config :=
  if value.any turnsOff then { c with smartHttp := false } else c

/-- A command of git in a repository. -/
def gitCommand (c : Config) (gitDir : Option String) (subcommand : String) : Command :=
  ({ program := c.gitProgram, args := [subcommand] } : Command).inRepository gitDir

/-- The command that fetches from a smart server. -/
def fetchCommand (c : Config) (o : Options) (gitDir : Option String) (url : String) : Command :=
  let base := (c.gitCommand gitDir "fetch-pack").withArgs ["--stateless-rpc", "--stdin", "--lock-pack"]
  ((((((base.argIf o.thin "--thin").argIf o.followTags "--include-tag").argIf
    (!o.progress) "--no-progress").argIf
    (o.checkConnectivity && o.cloning) "--check-self-contained-and-connected").withArgs
    (if 3 ≤ o.verbosity then ["-v", "-v"] else [])).argIf
    (0 < o.depth) ("--depth=" ++ toString o.depth)).arg url

/-- The command that pushes refspecs to a smart server. -/
def sendCommand (c : Config) (o : Options) (gitDir : Option String) (url : String)
    (specs : List String) : Command :=
  let base : Command :=
    { program := c.pushProgram, args := ["send-pack"], env := [("BOUGH_GIT_PROGRAM", c.gitProgram)] }
  ((((((((base.inRepository gitDir).withArgs ["--stateless-rpc", "--helper-status"]).argIf
    o.thin "--thin").argIf o.dryRun "--dry-run").argIf (o.verbosity = 0) "--quiet").argIf
    (1 < o.verbosity) "--verbose").arg
    (if o.progress then "--progress" else "--no-progress")).arg url).withArgs specs

/-- The command that pushes refspecs to a server of plain files. -/
def httpPushCommand (c : Config) (o : Options) (gitDir : Option String) (url : String)
    (specs : List String) : Command :=
  (((((c.gitCommand gitDir "http-push").arg "--helper-status").argIf o.dryRun "--dry-run").argIf
    (1 < o.verbosity) "--verbose").arg url).withArgs specs

end Config

end GitRemote
