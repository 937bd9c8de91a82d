import GitRemote.Text.Blank
import GitRemote.Text.Number

/-!
# Options

What the caller of a session may set, one option at a time. An option that is not known and a value
that cannot be read change nothing.
-/

namespace GitRemote

/-- The options of a session. -/
structure Options where
  /-- Zero is quiet, one is normal. -/
  verbosity : Int := 1
  progress : Bool := false
  /-- The depth of the history to fetch; zero is all of it. -/
  depth : Nat := 0
  followTags : Bool := false
  dryRun : Bool := false
  checkConnectivity : Bool := false
  thin : Bool := true
  cloning : Bool := false
  deriving DecidableEq, Repr

/-- The answer to a setting. -/
inductive OptionReply where
  | ok
  | unsupported
  | invalidValue
  deriving DecidableEq, Repr

/-- The text of an answer. -/
def OptionReply.text : OptionReply → String
  | .ok => "ok"
  | .unsupported => "unsupported"
  | .invalidValue => "error invalid value"

namespace Options

/-- The truth value that a text names. -/
def flag? (value : String) : Option Bool :=
  if value = "true" then some true else if value = "false" then some false else none

/-- Two to the power 31, the bound of the verbosity. -/
def verbosityBound : Nat := 2147483648

/-- The options with one of them set, if the value can be read. -/
def withValue? (o : Options) (name value : String) : Option (Option Options) :=
  match name with
  | "verbosity" =>
    some ((Text.integer? verbosityBound value).map fun v => { o with verbosity := v })
  | "depth" => some ((Text.natural? Text.wordBound value).map fun v => { o with depth := v })
  | "progress" => some ((flag? value).map fun v => { o with progress := v })
  | "followtags" => some ((flag? value).map fun v => { o with followTags := v })
  | "dry-run" => some ((flag? value).map fun v => { o with dryRun := v })
  | "check-connectivity" => some ((flag? value).map fun v => { o with checkConnectivity := v })
  | "thin" => some ((flag? value).map fun v => { o with thin := v })
  | "cloning" => some ((flag? value).map fun v => { o with cloning := v })
  | _ => none

/-- Sets an option. -/
def set (o : Options) (name value : String) : OptionReply × Options :=
  match o.withValue? name value with
  | none => (.unsupported, o)
  | some none => (.invalidValue, o)
  | some (some o) => (.ok, o)

/-- Sets the option that a line names. Without a value it is set to true. -/
def setLine (o : Options) (line : String) : OptionReply × Options :=
  match Text.cutAt? ' ' line with
  | some (name, value) => o.set name value
  | none => o.set line "true"

end Options

end GitRemote
