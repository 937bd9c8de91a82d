import GitRemote.Script.Distribution
import GitRemote.Script.Reader
import GitRemote.Script.Utility

/-!
# Running shell scripts

A script runs on the input that has reached it so far. It stops, waiting, where it needs input that
has not come and is not ruled out. `programs` makes every file that starts with the line of a shell
script a program, and knows the shell and some small programs of the system.

`Script` only serves to run the commands of a host: no result is about it, and none needs it.
-/

namespace GitRemote.Script

/-- The output of a substitution without the line ends behind it. -/
def dropLineEnds (b : Bytes) : Bytes := (b.reverse.dropWhile (· == 0x0A)).reverse

/-- Characters as bytes. -/
def encodeChars (s : List Char) : Bytes := Utf8.encode (String.ofList s)

/-- The pieces of the word behind an operator of an expansion. -/
def innerPieces (quoted : Bool) (w : List Char) : Word :=
  if quoted then
    (((quotedPieces false (w.length + 1) w).map (·.1)).getD []).filter (· != .text ['"'] true)
  else ((pieces true (w.length + 1) w).map (·.1)).getD [.text w false]

/-- What an expansion comes to. -/
inductive Expansion where
  | value (b : Bytes)
  /-- Another word takes its place. -/
  | word (w : List Char)
  /-- Another word takes its place and becomes the value. -/
  | assign (w : List Char)
  /-- It is an error, which a word describes. -/
  | failure (w : List Char)
  /-- A pattern is to be dropped from the value. -/
  | strip (drop : List PatternByte → Bytes → Bytes) (b : Bytes) (w : List Char)

/-- What the expansion of a parameter comes to. -/
def Shell.expansion (sh : Shell) (name : String) (m : Modifier) : Expansion :=
  let v := sh.value? name
  let given (orEmpty : Bool) : Bool := v.isSome && !(orEmpty && v == some [])
  let unset : Bool := v.isNone && sh.unsetIsError && name != "@" && name != "*"
  let value : Expansion := if unset then .failure [] else .value (v.getD [])
  match m with
  | .plain => value
  | .length => .value (bytesOf (toString (Utf8.charsLossy (v.getD [])).length))
  | .default orEmpty w => if given orEmpty then value else .word w
  | .assign orEmpty w => if given orEmpty then value else .assign w
  | .require orEmpty w => if given orEmpty then value else .failure w
  | .alternative orEmpty w => if given orEmpty then .word w else .value []
  | .dropStart longest w => .strip (dropMatch longest) (v.getD []) w
  | .dropEnd longest w => .strip (dropMatchRight longest) (v.getD []) w

/-- What a shell that is started with arguments runs: a text or a file, and its name and arguments. -/
def startedScript (args : List Bytes) : Option (Bool × Bytes × Option Bytes × List Bytes) :=
  let options := args.takeWhile fun a => a.head? == some 0x2D && a.length > 1
  let operands := args.drop options.length
  let ofText := options.any (·.contains 0x63)
  match operands with
  | [] => none
  | script :: rest =>
    if ofText then some (true, script, rest.head?, rest.tail) else some (false, script, none, rest)

/-- The line that a script starts with. -/
def firstLine : List Char := "#!/bin/sh\n".toList

/-- The text of a script file behind its first line, if it starts with the line of a script, and the
number of the line it starts on. -/
def scriptText (b : Bytes) : List Char × Nat :=
  let cs := Utf8.charsLossy b
  match Text.after? firstLine cs with
  | some rest => (rest, 2)
  | none => (cs, 1)

/-- What the shell prints when a signal has ended a program. -/
def signalTexts : List (Nat × String) :=
  [(1, "Hangup"), (3, "Quit"), (4, "Illegal instruction"), (6, "Aborted"), (8, "Floating point exception"),
    (9, "Killed"), (10, "User defined signal 1"), (11, "Segmentation fault"),
    (12, "User defined signal 2"), (14, "Alarm clock"), (15, "Terminated")]

/-- How `kill` is used. -/
def killUsage : String :=
  "kill: Usage: kill [-s sigspec | -signum | -sigspec] [pid | job]... or\nkill -l [exitstatus]"

/-- What `kill` says about a signal that there is not. -/
def badSignal (args : List Bytes) : String :=
  match args with
  | [0x2D, 0x73] :: s :: _ => "kill: invalid signal number or name: " ++ Utf8.decodeLossy s
  | a :: _ => "kill: Illegal option -" ++ Utf8.decodeLossy ((a.drop 1).take 1)
  | [] => killUsage

/-- What a name of a command that is no utility of the shell stands for. -/
inductive Found where
  | script (path : String) (content : Bytes)
  /-- A file that is no program. -/
  | denied
  | system (name : String)
  | nothing

/-- What is at a path. -/
def Shell.programAt (sh : Shell) (path : String) : Found :=
  match sh.files.find? path with
  | some b => if (bytesOf "#!").isPrefixOf b then .script path b else .denied
  | none =>
    match ["/bin/", "/usr/bin/"].findSome? (Text.stripStart? · path) with
    | some name => if systemPrograms.contains name then .system name else .nothing
    | none => if sh.hasDirectory path then .denied else .nothing

/-- Looks for a program in the directories of a search path. -/
def Shell.searchPath (sh : Shell) (name : String) : List String → Found
  | [] => .nothing
  | directory :: rest =>
    match sh.programAt ((sh.resolve (bytesOf (if directory = "" then "." else directory))) ++ "/" ++ name) with
    | .nothing => searchPath sh name rest
    | .denied => searchPath sh name rest
    | found => found

/-- Where programs are looked for unless something else is set. -/
def standardPath : String := "/usr/local/sbin:/usr/local/bin:/usr/sbin:/usr/bin:/sbin:/bin"

/-- Looks for a program by its name, or by its path if it has a slash. -/
def Shell.lookUp (sh : Shell) (name : Bytes) : Found :=
  let text := Utf8.decodeLossy name
  if name.isEmpty then .nothing
  else if name.contains 0x2F then sh.programAt (sh.resolve name)
  else sh.searchPath text ((Utf8.decodeLossy ((sh.bindings.lookup "PATH").getD [])).splitOn ":")

/-- Whether there is no program of a name. -/
def Shell.isUnknown (sh : Shell) (name : Bytes) : Bool :=
  match sh.lookUp name with
  | .nothing => !ownUtilities.contains (Utf8.decodeLossy name)
  | _ => false

/-- The shell back in the text from which another one was run. -/
def Shell.backIn (inner outer : Shell) : Shell :=
  { inner with firstLine := outer.firstLine, lineEnds := outer.lineEnds, composed := outer.composed }

/-- Shows a command before it is run, if commands are shown. -/
def Shell.trace (sh : Shell) (assignments : List String) (words : List Bytes) : Shell :=
  if !sh.tracing then sh
  else
    let set := assignments.map fun n => bytesOf n ++ 0x3D :: (sh.bindings.lookup n).getD []
    sh.writeTo sh.errorOutput (bytesOf "+ " ++ joinArgs (set ++ words) ++ [0x0A])

/-- What the shell says about text that does not belong where it is. -/
def complaint (rest : List Char) : String :=
  let word := rest.takeWhile fun c => !endsWord c
  if endsQuoted none rest then "Syntax error: Unterminated quoted string"
  else if rest.isEmpty then "Syntax error: end of file unexpected"
  else "Syntax error: \"" ++ String.ofList (if word.isEmpty then rest.take 1 else word) ++ "\" unexpected"

/-- Whether a command of words lets the shell itself use its redirections from then on. -/
def isPermanent : List Word → Bool
  | [w] => plainText w == some "exec".toList
  | _ => false

/-- A failure ends a shell that is to end on failures, unless it is part of a condition. -/
def afterCommand : Flow × Shell → Flow × Shell
  | (.next, sh) =>
    if sh.status != 0 && sh.exitOnError && !sh.guarded then (.exit, sh) else (.next, sh)
  | r => r

mutual

/-- Expands a word to fields. -/
def expand : Nat → Word → Fields → Shell → Flow × Fields × Shell
  | 0, _, f, sh => (.next, f, sh)
  | _ + 1, [], f, sh => (.next, f, sh)
  | fuel + 1, p :: ps, f, sh =>
    let onward (quoted : Bool) (b : Bytes) (sh : Shell) : Flow × Fields × Shell :=
      expand fuel ps (if quoted then f.append true b else f.appendSplit sh.separators b) sh
    match p with
    | .text s quoted =>
      let b := encodeChars s
      expand fuel ps (if b.isEmpty && !quoted then f else f.append quoted b) sh
    | .parameter "@" .plain true => expand fuel ps (f.appendEach sh.args) sh
    | .parameter "@" .plain false => expand fuel ps (f.appendEachSplit sh.separators sh.args) sh
    | .parameter "*" .plain false => expand fuel ps (f.appendEachSplit sh.separators sh.args) sh
    | .parameter name m quoted =>
      match sh.expansion name m with
      | .word w => expand fuel (innerPieces quoted w ++ ps) f sh
      | e =>
        match settle fuel name quoted e sh with
        | (.next, b, sh) => onward quoted b sh
        | (flow, _, sh) => (flow, f, sh)
    | .output script quoted =>
      match substitute fuel script sh with
      | (.next, b, sh) => onward quoted b sh
      | (flow, _, sh) => (flow, f, sh)
    | .value e quoted =>
      match calculate fuel e sh with
      | (.next, b, sh) => onward quoted b sh
      | (flow, _, sh) => (flow, f, sh)

/-- The bytes that an expansion comes to. -/
def settle : Nat → String → Bool → Expansion → Shell → Flow × Bytes × Shell
  | 0, _, _, _, sh => (.next, [], sh)
  | fuel + 1, name, quoted, e, sh =>
    match e with
    | .value b => (.next, b, sh)
    | .word w => expandWhole fuel (innerPieces quoted w) sh
    | .assign w =>
      match expandWhole fuel (innerPieces quoted w) sh with
      | (.next, b, sh) => (.next, b, sh.assign name b)
      | r => r
    | .failure w =>
      match expandWhole fuel (innerPieces false w) sh with
      | (.next, b, sh) =>
        let text := if b.isEmpty then "parameter not set" else Utf8.decodeLossy b
        let (flow, sh) := sh.abort (name ++ ": " ++ text)
        (flow, [], sh)
      | r => r
    | .strip drop b w =>
      match expandPattern fuel (innerPieces false w) sh with
      | (.next, p, sh) => (.next, drop p b, sh)
      | (flow, _, sh) => (flow, [], sh)

/-- The value of an arithmetic expression. -/
def calculate : Nat → List Char → Shell → Flow × Bytes × Shell
  | 0, _, sh => (.next, [], sh)
  | fuel + 1, cs, sh =>
    match expandWhole fuel (innerPieces true cs) sh with
    | (.next, b, sh) =>
      let failed (text : String) : Flow × Bytes × Shell :=
        let (flow, sh) := sh.abort text
        (flow, [], sh)
      let quote := ": \"" ++ Utf8.decodeLossy b ++ "\""
      match Expression.read (Utf8.charsLossy b) with
      | none => failed ("arithmetic expression: expecting primary" ++ quote)
      | some e =>
        match e.evaluate (fun x => Utf8.charsLossy ((sh.value? x).getD [])) [] with
        | .ok (n, set) =>
          let sh := set.reverse.foldl (fun sh (x, n) => sh.assign x (bytesOf (toString n))) sh
          (.next, bytesOf (toString n), sh)
        | .error .divisionByZero => failed ("arithmetic expression: division by zero" ++ quote)
        | .error (.noNumber v) => failed ("Illegal number: " ++ v)
        | .error .malformed => failed ("arithmetic expression: expecting EOF" ++ quote)
    | (flow, _, sh) => (flow, [], sh)

/-- Expands a word that is not split. -/
def expandWhole : Nat → Word → Shell → Flow × Bytes × Shell
  | 0, _, sh => (.next, [], sh)
  | fuel + 1, w, sh =>
    match expandPattern fuel w sh with
    | (flow, p, sh) => (flow, p.map (·.1), sh)

/-- Expands a word to a pattern. -/
def expandPattern : Nat → Word → Shell → Flow × List PatternByte × Shell
  | 0, _, sh => (.next, [], sh)
  | _ + 1, [], sh => (.next, [], sh)
  | fuel + 1, p :: ps, sh =>
    let (flow, b, quoted, sh) : Flow × Bytes × Bool × Shell :=
      match p with
      | .text s quoted => (.next, encodeChars s, quoted, sh)
      | .parameter name m quoted =>
        let (flow, b, sh) := settle fuel name quoted (sh.expansion name m) sh
        (flow, b, quoted, sh)
      | .output script quoted =>
        let (flow, b, sh) := substitute fuel script sh
        (flow, b, quoted, sh)
      | .value e quoted =>
        let (flow, b, sh) := calculate fuel e sh
        (flow, b, quoted, sh)
    match flow with
    | .next =>
      let (flow, rest, sh) := expandPattern fuel ps sh
      (flow, (b.map fun x => (x, quoted)) ++ rest, sh)
    | _ => (flow, [], sh)

/-- The output of a script inside a word. -/
def substitute : Nat → List Char → Shell → Flow × Bytes × Shell
  | 0, _, sh => (.next, [], sh)
  | fuel + 1, cs, sh =>
    let (flow, inner) := atEnd fuel (runText fuel cs { sh.part with output := .held, held := [] })
    (flow.rejoin, dropLineEnds inner.held,
      { inner.rejoin sh with held := sh.held, substituted := true })

/-- Expands words to fields, of which patterns become the names of files. -/
def expandAll : Nat → List Word → Shell → Flow × List Bytes × Shell
  | 0, _, sh => (.next, [], sh)
  | _ + 1, [], sh => (.next, [], sh)
  | fuel + 1, w :: ws, sh =>
    match expand fuel w {} sh with
    | (.next, f, sh) =>
      let fields := f.all.flatMap sh.fileNames
      let (flow, rest, sh) := expandAll fuel ws sh
      (flow, fields ++ rest, sh)
    | (flow, _, sh) => (flow, [], sh)

/-- Sets variables in turn. -/
def assignAll : Nat → List (String × Word) → Shell → Flow × Shell
  | 0, _, sh => (.next, sh)
  | _ + 1, [], sh => (.next, sh)
  | fuel + 1, (name, w) :: rest, sh =>
    match expandWhole fuel w sh with
    | (.next, b, sh) => assignAll fuel rest (sh.assign name b)
    | (flow, _, sh) => (flow, sh)

/-- Applies redirections in turn, and tells whether all could be. -/
def redirect : Nat → List Redirection → Shell → Flow × Bool × Shell
  | 0, _, sh => (.next, true, sh)
  | _ + 1, [], sh => (.next, true, sh)
  | fuel + 1, r :: rs, sh =>
    match expandWhole fuel r.target sh with
    | (.next, b, sh) =>
      let path := sh.resolve b
      let ofFile (b : Bytes) : Shell :=
        { sh with input := b, inputClosed := true, inputIsFile := true }
      let failed (text : String) : Option Shell × Shell := (none, (sh.report text 2).2)
      let toFile (e : Effect) : Option Shell × Shell :=
        if path == "/dev/null" then (some (sh.connect r.descriptor .discard), sh)
        else if path == "/dev/stdout" then (some (sh.connect r.descriptor sh.output), sh)
        else if path == "/dev/stderr" then (some (sh.connect r.descriptor sh.errorOutput), sh)
        else if sh.mayCreate path then (some ((sh.perform e).connect r.descriptor (.file path)), sh)
        else failed ("cannot create " ++ Utf8.decodeLossy b ++ ": Directory nonexistent")
      let (applied, sh) : Option Shell × Shell :=
        match r.direction with
        | .document => (some { ofFile b with inputIsFile := false }, sh)
        | .read =>
          if path == "/dev/null" then (some (ofFile []), sh)
          else if path == "/dev/stdin" then (some sh, sh)
          else
            match sh.files.find? path with
            | some content => (some (ofFile content), sh)
            | none => failed ("cannot open " ++ Utf8.decodeLossy b ++ ": No such file")
        | .write => toFile (.create path)
        | .append => toFile (.append path [])
        | .duplicate =>
          if b == bytesOf "-" then
            (some (if r.descriptor == 0 then ofFile [] else sh.connect r.descriptor .closed), sh)
          else if r.descriptor == 0 then (some sh, sh)
          else
            match (Text.digits? 10 b).bind sh.sink? with
            | some sink => (some (sh.connect r.descriptor sink), sh)
            | none => failed (Utf8.decodeLossy b ++ ": Bad file descriptor")
      match applied with
      | some sh => redirect fuel rs sh
      | none => (.next, false, sh)
    | (flow, _, sh) => (flow, false, sh)

/-- Runs something with redirections, and puts back what they changed. -/
def withRedirections : Nat → List Redirection → (Shell → Flow × Shell) → Shell → Flow × Shell
  | 0, _, _, sh => (.next, sh)
  | fuel + 1, rs, body, sh =>
    match redirect fuel rs sh with
    | (.next, applied, inner) =>
      let (flow, inner) := if applied then body inner else inner.withStatus 2
      let restored :=
        { inner with output := sh.output, errorOutput := sh.errorOutput, others := sh.others }
      (flow,
        if rs.any (·.descriptor == 0) then
          { restored with
            input := sh.input, inputClosed := sh.inputClosed, inputIsFile := sh.inputIsFile }
        else restored)
    | (flow, _, inner) => (flow, inner)

/-- Runs another script as a program. -/
def runOther : Nat → List Char → Shell → Shell → Flow × Shell
  | 0, _, _, sh => (.next, sh)
  | fuel + 1, cs, other, sh =>
    match atEnd fuel (runText fuel cs other) with
    | (.killed signal, other) =>
      let after := other.rejoin sh
      match signalTexts.lookup signal with
      | some text => after.complain text (128 + signal)
      | none => after.withStatus (128 + signal)
    | (.waiting, other) => (.waiting, other.rejoin sh)
    | (_, other) => (.next, other.rejoin sh)

/-- Runs the action on the end of a script, if there is one. -/
def atEnd : Nat → Flow × Shell → Flow × Shell
  | 0, r => r
  | fuel + 1, (flow, sh) =>
    match flow with
    | .waiting => (flow, sh)
    | .killed _ => (flow, sh)
    | _ =>
      match sh.traps.lookup 0 with
      | none => (flow, sh)
      | some action =>
        match runText fuel (Utf8.charsLossy action) { sh with traps := sh.traps.filter (·.1 != 0) } with
        | (.exit, after) => (.exit, after)
        | (.next, after) => (.exit, { after with status := sh.status })
        | r => r

/-- Sends a signal to the shell itself. -/
def signal : Nat → Nat → Shell → Flow × Shell
  | 0, _, sh => (.next, sh)
  | fuel + 1, n, sh =>
    if n = 0 || n = 17 || n = 18 || n = 23 || n = 28 then sh.withStatus 0
    else
      match if n = 9 then none else sh.traps.lookup n with
      | none => (.killed n, sh)
      | some action =>
        match runText fuel (Utf8.charsLossy action) { sh with status := 0 } with
        | (.next, sh) => sh.withStatus 0
        | r => r

/-- Runs a command that is given by its words and that functions do not replace. -/
def runProgram : Nat → List Bytes → Shell → Flow × Shell
  | 0, _, sh => (.next, sh)
  | _ + 1, [], sh => sh.withStatus 0
  | fuel + 1, name :: args, sh =>
    let text := Utf8.decodeLossy name
    if !ownUtilities.contains text then
      match sh.lookUp name with
      | .script path b =>
        let (cs, line) := scriptText b
        runOther fuel cs (sh.other (if name.contains 0x2F then name else bytesOf path) args line) sh
      | .denied => sh.report (text ++ ": Permission denied") 126
      | .system program => runSystem fuel program args sh
      | .nothing => sh.report (text ++ ": not found") 127
    else
      match text with
      | "eval" =>
        let cs := Utf8.charsLossy (joinArgs args)
        let status := if cs.all Char.isWhitespace then 0 else sh.status
        match runText fuel cs { sh with status, firstLine := 1, composed := true } with
        | (flow, inner) => (flow, inner.backIn sh)
      | "exec" =>
        if args.head?.any sh.isUnknown then
          (.exit, (sh.report ("exec: " ++ Utf8.decodeLossy (args.headD []) ++ ": not found") 127).2)
        else
          match runProgram fuel args sh with
          | (.next, sh) => (.exit, { sh with traps := [] })
          | r => r
      | "command" =>
        if (args.head?.any fun a => a == bytesOf "-v" || a == bytesOf "-V") then
          let n := Utf8.decodeLossy (args.getD 1 [])
          if sh.functions.any (·.1 == n) || ownUtilities.contains n then sh.print (bytesOf (n ++ "\n")) 0
          else
            match sh.lookUp (args.getD 1 []) with
            | .script path _ => sh.print (bytesOf (path ++ "\n")) 0
            | .system program => sh.print (bytesOf ("/usr/bin/" ++ program ++ "\n")) 0
            | _ => sh.withStatus 127
        else runProgram fuel (if args.head? == some (bytesOf "-p") then args.tail else args) sh
      | "." =>
        let path := args.headD []
        if path == bytesOf "/dev/null" then sh.withStatus 0
        else
          match sh.files.find? (sh.resolve path) with
          | none => sh.abort (".: cannot open " ++ Utf8.decodeLossy path ++ ": No such file")
          | some b =>
            match runText fuel (Utf8.charsLossy b) { sh with status := 0, firstLine := 1 } with
            | (.leaveFunction, inner) => (.next, inner.backIn sh)
            | (flow, inner) => (flow, inner.backIn sh)
      | "kill" =>
        let (number, targets) : Option Nat × List Bytes :=
          match args with
          | [0x2D, 0x73] :: s :: rest => (signalNumber? s, rest)
          | (0x2D :: s) :: rest => (signalNumber? s, rest)
          | rest => (some 15, rest)
        match number, targets with
        | none, _ => sh.report (badSignal args) 2
        | some _, [] => sh.report killUsage 2
        | some n, target :: _ =>
          if target == Shell.ownNumber || target == bytesOf "0" then signal fuel n sh
          else if target == Shell.backgroundNumber then sh.withStatus 0
          else sh.report "kill: No such process\n" 1
      | _ =>
        match utility text args sh with
        | some r => r
        | none => sh.report (text ++ ": not found") 127

/-- Runs a program of the system. -/
def runSystem : Nat → String → List Bytes → Shell → Flow × Shell
  | 0, _, _, sh => (.next, sh)
  | fuel + 1, text, args, sh =>
    match text with
      | "env" =>
        let settings := args.takeWhile fun a => a.contains 0x3D || a.head? == some 0x2D
        let inner := settings.foldl (fun (inner : Shell) a =>
          match assignmentArg a with
          | (n, some v) => (inner.assign n v).mark n
          | _ => inner) sh
        let rest := args.drop settings.length
        if rest.isEmpty then
          inner.print (unlines (inner.exported.reverse.filterMap fun n =>
            (inner.bindings.lookup n).map fun v => bytesOf n ++ 0x3D :: v)) 0
        else
          let (flow, after) := runProgram fuel rest inner
          (flow, after.rejoin sh)
      | "sh" =>
        let name := bytesOf "sh"
        match startedScript args with
        | none => runOther fuel (Utf8.charsLossy sh.input) { sh.other name [] 1 with input := [] } sh
        | some (true, script, scriptName, rest) =>
          runOther fuel (Utf8.charsLossy script) (sh.other (scriptName.getD name) rest 1) sh
        | some (false, path, _, rest) =>
          match sh.files.find? (sh.resolve path) with
          | none => sh.report ("cannot open " ++ Utf8.decodeLossy path ++ ": No such file") 2
          | some b => runOther fuel (Utf8.charsLossy b) (sh.other path rest 1) sh
      | "xargs" =>
        let d := Distribution.read (args.length + 1) {} args
        if sh.inputClosed then
          eachCommand fuel (d.commands sh.input) { sh with input := [], status := 0 }
        else (.waiting, sh)
      | _ =>
        match utility (if text = "echo" then "/bin/echo" else text) args sh with
        | some r => r
        | none => sh.report (text ++ ": not found") 127

/-- Runs commands in turn, and tells by the status if one failed. -/
def eachCommand : Nat → List (List Bytes) → Shell → Flow × Shell
  | 0, _, sh => (.next, sh)
  | _ + 1, [], sh => (.next, sh)
  | fuel + 1, command :: commands, sh =>
    match runProgram fuel command sh with
    | (.next, after) =>
      let status := if after.status == 0 then sh.status else 123
      eachCommand fuel commands { after with status }
    | r => r

/-- Runs a command that is given by its words. -/
def runWords : Nat → List Bytes → Shell → Flow × Shell
  | 0, _, sh => (.next, sh)
  | _ + 1, [], sh => (.next, sh)
  | fuel + 1, name :: args, sh =>
    let text := Utf8.decodeLossy name
    match if specialUtilities.contains text then none else sh.functions.lookup text with
    | none => runProgram fuel (name :: args) sh
    | some body =>
      let (flow, inner) := run fuel body { sh with args, saved := [], loops := 0 }
      let after := inner.saved.foldl (fun sh (n, v) => sh.restore n v) inner
      (if flow == .leaveFunction then .next else flow,
        { after with args := sh.args, saved := sh.saved, loops := sh.loops })

/-- Runs a command as a condition: its failure does not end the shell. -/
def runGuarded : Nat → Term → Shell → Flow × Shell
  | 0, _, sh => (.next, sh)
  | fuel + 1, t, sh =>
    let (flow, inner) := run fuel t { sh with guarded := true }
    (flow, { inner with guarded := sh.guarded })

/-- Runs a command. -/
def run : Nat → Term → Shell → Flow × Shell
  | 0, _, sh => (.next, sh)
  | fuel + 1, t, sh =>
    match t with
    | .nothing => (.next, sh)
    | .simple assignments words redirections below =>
      let sh := { sh with below, substituted := false }
      if isPermanent words then
        match redirect fuel redirections sh with
        | (.next, true, sh) => sh.withStatus 0
        | (.next, false, sh) => (.exit, sh)
        | (flow, _, sh) => (flow, sh)
      else
        afterCommand <| withRedirections fuel redirections (fun sh =>
          match expandAll fuel words sh with
          | (.next, [], sh) =>
            match assignAll fuel assignments sh with
            | (.next, sh) =>
              let sh := if assignments.isEmpty then sh else sh.trace (assignments.map (·.1)) []
              (.next, if sh.substituted then sh else { sh with status := 0 })
            | r => r
          | (.next, name :: args, sh) =>
            match assignAll fuel assignments sh with
            | (.next, inner) =>
              let inner := inner.trace (assignments.map (·.1)) (name :: args)
              if specialUtilities.contains (Utf8.decodeLossy name) then runWords fuel (name :: args) inner
              else
                let names := assignments.map (·.1)
                let (flow, after) := runWords fuel (name :: args) (names.foldl Shell.mark inner)
                let after := names.foldl (fun after n => after.restore n (sh.bindings.lookup n)) after
                (flow, if names.isEmpty then after else { after with exported := sh.exported })
            | r => r
          | (flow, _, sh) => (flow, sh)) sh
    | .redirected body redirections =>
      withRedirections fuel redirections (run fuel body) sh
    | .sequence a b =>
      match run fuel a sh with
      | (.next, sh) => run fuel b sh
      | r => r
    | .both a b =>
      match runGuarded fuel a sh with
      | (.next, sh) => if sh.status == 0 then run fuel b sh else (.next, sh)
      | r => r
    | .either a b =>
      match runGuarded fuel a sh with
      | (.next, sh) => if sh.status == 0 then (.next, sh) else run fuel b sh
      | r => r
    | .negated a =>
      match runGuarded fuel a sh with
      | (.next, sh) => sh.withStatus (if sh.status == 0 then 1 else 0)
      | r => r
    | .pipe a b =>
      let (first, left) := atEnd fuel (run fuel a { sh.part with output := .held, held := [] })
      let middle := left.rejoin sh
      let (second, right) := atEnd fuel <|
        run fuel b { middle.part with
          input := left.held
          inputClosed := first != .waiting
          inputIsFile := false
          held := sh.held }
      let after := { right.rejoin sh with input := left.input }
      match first, second with
      | .waiting, _ => (.waiting, after)
      | _, .waiting => (.waiting, after)
      | _, flow => afterCommand (flow.rejoin, after)
    | .subshell body =>
      let (flow, inner) := atEnd fuel (run fuel body sh.part)
      afterCommand (flow.rejoin, inner.rejoin sh)
    | .background body =>
      let (_, inner) := atEnd fuel (run fuel body { sh.part with input := [], inputClosed := true })
      (.next, { inner.rejoin sh with input := sh.input, background := inner.status, status := 0 })
    | .branch c a b =>
      match runGuarded fuel c sh with
      | (.next, sh) =>
        if sh.status == 0 then run fuel a sh
        else run fuel b { sh with status := 0 }
      | r => r
    | .loop negated c body =>
      match turning fuel negated c body 0 { sh with loops := sh.loops + 1 } with
      | (flow, inner) => (flow, { inner with loops := sh.loops })
    | .each name words body =>
      let expanded : Flow × List Bytes × Shell :=
        match words with
        | none => (.next, sh.args, sh)
        | some ws => expandAll fuel ws sh
      match expanded with
      | (.next, fields, sh) =>
        match turns fuel name fields body { sh with loops := sh.loops + 1, status := 0 } with
        | (flow, inner) => (flow, { inner with loops := sh.loops })
      | (flow, _, sh) => (flow, sh)
    | .select subject arms =>
      match expandWhole fuel subject sh with
      | (.next, b, sh) => firstArm fuel b arms sh
      | (flow, _, sh) => (flow, sh)
    | .define name body =>
      { sh with functions := (name, body) :: sh.functions.filter (·.1 != name) }.withStatus 0

/-- Runs the body of a loop as long as its condition is as it should be; `last` is the status of the
last turn. -/
def turning : Nat → Bool → Term → Term → Nat → Shell → Flow × Shell
  | 0, _, _, _, _, sh => (.next, sh)
  | fuel + 1, negated, c, body, last, sh =>
    match runGuarded fuel c sh with
    | (.next, sh) =>
      if (sh.status == 0) != negated then
        match run fuel body sh with
        | (.next, sh) => turning fuel negated c body sh.status sh
        | (.nextTurn n, sh) =>
          if n ≤ 1 then turning fuel negated c body sh.status sh else (.nextTurn (n - 1), sh)
        | (.leaveLoop n, sh) => (if n ≤ 1 then .next else .leaveLoop (n - 1), sh)
        | r => r
      else sh.withStatus last
    | (.leaveLoop n, sh) => (if n ≤ 1 then .next else .leaveLoop (n - 1), sh)
    | r => r

/-- Runs the body of a loop for each of some values. -/
def turns : Nat → String → List Bytes → Term → Shell → Flow × Shell
  | 0, _, _, _, sh => (.next, sh)
  | _ + 1, _, [], _, sh => (.next, sh)
  | fuel + 1, name, v :: vs, body, sh =>
    match run fuel body (sh.assign name v) with
    | (.next, sh) => turns fuel name vs body sh
    | (.nextTurn n, sh) => if n ≤ 1 then turns fuel name vs body sh else (.nextTurn (n - 1), sh)
    | (.leaveLoop n, sh) => (if n ≤ 1 then .next else .leaveLoop (n - 1), sh)
    | r => r

/-- Runs the first arm of which a pattern matches. -/
def firstArm : Nat → Bytes → List (List Word × Term) → Shell → Flow × Shell
  | 0, _, _, sh => (.next, sh)
  | _ + 1, _, [], sh => sh.withStatus 0
  | fuel + 1, b, (ps, body) :: rest, sh =>
    match anyMatches fuel b ps sh with
    | (.next, true, sh) => run fuel body { sh with status := 0 }
    | (.next, false, sh) => firstArm fuel b rest sh
    | (flow, _, sh) => (flow, sh)

/-- Whether one of some patterns matches. -/
def anyMatches : Nat → Bytes → List Word → Shell → Flow × Bool × Shell
  | 0, _, _, sh => (.next, false, sh)
  | _ + 1, _, [], sh => (.next, false, sh)
  | fuel + 1, b, w :: ws, sh =>
    match expandPattern fuel w sh with
    | (.next, p, sh) => if patternMatch p b then (.next, true, sh) else anyMatches fuel b ws sh
    | (flow, _, sh) => (flow, false, sh)

/-- Runs a text line by line. What cannot be read ends the shell when it is reached. -/
def runText : Nat → List Char → Shell → Flow × Shell
  | 0, _, sh => (.next, sh)
  | fuel + 1, cs, sh => runLines fuel cs { sh with lineEnds := cs.count '\n' }

/-- Runs the lines of a text in turn. -/
def runLines : Nat → List Char → Shell → Flow × Shell
  | 0, _, sh => (.next, sh)
  | fuel + 1, cs, sh =>
    match next cs with
    | .finished => (.next, sh)
    | .malformed rest => { sh with below := if endsQuoted none rest then 0 else rest.count '\n' }.abort (complaint rest)
    | .command t rest =>
      match run fuel t sh with
      | (.next, sh) => runLines fuel rest sh
      | r => r

end

/-- The number of steps that a script may take. -/
def stepLimit : Nat := 100000

/-- How a script ended, and the input that it left. -/
def runOf (r : Flow × Shell) : ProgramRun :=
  let (flow, sh) := atEnd stepLimit r
  { effects := sh.effects
    unread := sh.input.length
    ending :=
      match flow with
      | .waiting => .waiting
      | .killed signal => .killed signal
      | _ => .exited sh.status }

/-- The shell that a command starts among some files. -/
def Shell.ofCommand (c : Command) (files : Files) (input : ProgramInput) : Shell :=
  { name := Utf8.encode c.program
    args := c.args.map Utf8.encode
    bindings :=
      ("IFS", Shell.standardSeparators) :: ("PWD", bytesOf (c.directory.getD "/")) ::
        (c.env.reverse.map fun (k, v) => (k, Utf8.encode v)) ++ [("PATH", bytesOf standardPath)]
    exported := "PATH" :: c.env.map (·.1)
    directory := c.directory.getD "/"
    files
    input := input.data
    inputClosed := input.closed }

/-- A script as a program. -/
def program (b : Bytes) (c : Command) (files : Files) : Program := fun input =>
  let (cs, line) := scriptText b
  runOf (runText stepLimit cs { Shell.ofCommand c files input with firstLine := line })

/-- A program of the system as a program; the shell runs the script that its arguments give. -/
def systemProgram (name : String) (c : Command) (files : Files) : Program := fun input =>
  let sh := Shell.ofCommand c files input
  runOf <|
    match if name = "sh" then startedScript sh.args else none with
    | some (true, script, scriptName, rest) =>
      runText stepLimit (Utf8.charsLossy script) { sh with name := scriptName.getD sh.name, args := rest }
    | _ => runSystem stepLimit name sh.args { sh with args := [] }

/-- The programs among some files, which are the scripts there, and those of the system. -/
def programs (c : Command) (files : Files) : Option Program :=
  match (Shell.ofCommand c files {}).lookUp (Utf8.encode c.program) with
  | .script path b => some (program b (if c.program.contains '/' then c else { c with program := path }) files)
  | .system name => some (systemProgram name c files)
  | _ => none

end GitRemote.Script
