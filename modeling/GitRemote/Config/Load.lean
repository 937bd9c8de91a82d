import GitRemote.Config.Basic
import GitRemote.Config.Path
import GitRemote.Config.Toml.Basic
import GitRemote.Remote.Error

/-!
# Loading the configuration

Settings come from a file, and those of the environment go before it. What neither gives has its
default, and names that are not known mean nothing.
-/

namespace GitRemote

/-- Variables of the environment, of which a later one goes before an earlier one of its name. -/
abbrev Environment := List (String × String)

namespace Config

/-- The settings of the file and of the environment. -/
structure Sources where
  file : Toml.Entries
  environment : Environment

/-- How a variable begins that gives a setting. -/
def variableStart : String := "bough_"

/-- The name of a variable in lower case. The sign for kelvins is a capital of the letter. -/
def lowerName (name : String) : String :=
  String.ofList (name.toList.map fun c => if c = '\u212A' then 'k' else c.toLower)

/-- The setting that a variable gives, and where. -/
def ofVariable? (entry : String × String) : Option (Path × Setting) :=
  (Text.stripStart? variableStart (lowerName entry.1)).map fun name =>
    (.ofText name, .ofText entry.2)

/-- The setting that an entry of a file gives, and where. -/
def ofEntry (entry : String × Toml.Node) : Path × Setting :=
  let setting :=
    match entry.2 with
    | .single s => s
    | _ => .compound
  (.ofText entry.1, setting)

/-- A setting among others, if it is given. One that is given in parts is a compound. -/
def findSetting? (given : List (Path × Setting)) (name : String) : Option Setting :=
  (given.reverse.find? (·.1.root == name)).map fun (path, setting) =>
    if path.inside then .compound else setting

/-- A setting, if it is given. -/
def Sources.find? (s : Sources) (name : String) : Option Setting :=
  (findSetting? (s.environment.filterMap ofVariable?) name).or
    (findSetting? (s.file.map ofEntry) name)

/-- The value of a setting in the form that is wanted, or its default. -/
def Sources.get {α : Type} (s : Sources) (read : Setting → Option α) (name : String) (default : α) :
    Except RemoteError α :=
  match s.find? name with
  | none => .ok default
  | some setting => (read setting).elim (.error (.config (.badValue name))) .ok

/-- The configuration that some settings make. -/
def ofSources (s : Sources) : Except RemoteError Config := do
  let base : Config := {}
  let postBuffer ← s.get Setting.natural? "post_buffer" base.postBuffer
  let userAgent ← s.get Setting.text? "user_agent" base.userAgent
  let smartHttp ← s.get Setting.flag? "smart_http" base.smartHttp
  let gitProgram ← s.get Setting.text? "git_program" base.gitProgram
  let sendPackProgram ← s.get Setting.text? "send_pack_program" base.sendPackProgram
  let timeoutSeconds ← s.get Setting.natural? "timeout_secs" base.timeoutSeconds
  let gzipThreshold ← s.get Setting.natural? "gzip_threshold" base.gzipThreshold
  let maxTreeDepth ← s.get Setting.natural? "max_tree_depth" base.maxTreeDepth
  let credentialHelper ← s.get Setting.text? "credential_helper" base.credentialHelper
  pure ({ postBuffer, userAgent, smartHttp, gitProgram, sendPackProgram, timeoutSeconds,
          gzipThreshold, maxTreeDepth, credentialHelper } : Config)

/-- Loads the configuration from the content of its file, which counts as empty if it may be missing,
and from the environment. A mark of the byte order at the front of the file is not part of it. -/
def load (file : Option String) (required : Bool) (environment : Environment) :
    Except RemoteError Config :=
  if required && file.isNone then .error (.config .noFile)
  else
    match Toml.parse (String.ofList (Toml.dropOrderMark (file.getD "").toList)) with
    | none => .error (.config .malformed)
    | some entries =>
      (ofSources ⟨entries, environment⟩).map
        (·.withSwitch (environment.reverse.lookup "GIT_SMART_HTTP"))

end Config

end GitRemote
