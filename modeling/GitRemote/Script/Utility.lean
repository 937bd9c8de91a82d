import GitRemote.Script.Condition
import GitRemote.Script.Edit
import GitRemote.Script.Shell

/-!
# Utilities of shell scripts

The utilities that run no other command: those that change the shell, those that work on files, and
those that read the input. `utility` runs one by its name.

Like all of `Script` it only serves to run commands: no result is about it, and none needs it.
-/

namespace GitRemote.Script

/-- The part of a path behind its last slash. -/
def baseName (path : Bytes) : Bytes :=
  let trimmed := (path.reverse.dropWhile (· == 0x2F)).reverse
  if trimmed.isEmpty then path.take 1 else (trimmed.reverse.takeWhile (· != 0x2F)).reverse

/-- The part of a path before its last slash. -/
def dirName (path : Bytes) : Bytes :=
  let trimmed := (path.reverse.dropWhile (· == 0x2F)).reverse
  let parent := trimmed.reverse.dropWhile (· != 0x2F)
  if parent.isEmpty then (if trimmed.isEmpty && !path.isEmpty then [0x2F] else [0x2E])
  else
    let parent := (parent.dropWhile (· == 0x2F)).reverse
    if parent.isEmpty then [0x2F] else parent

/-- A text without an ending, unless it is all of it. -/
def dropEnding (ending b : Bytes) : Bytes :=
  if b != ending && ending.isSuffixOf b then b.take (b.length - ending.length) else b

/-- The signals by name; zero is the end of the script. -/
def signals : List (String × Nat) :=
  [("EXIT", 0), ("HUP", 1), ("INT", 2), ("QUIT", 3), ("ILL", 4), ("TRAP", 5), ("ABRT", 6), ("BUS", 7),
    ("FPE", 8), ("KILL", 9), ("USR1", 10), ("SEGV", 11), ("USR2", 12), ("PIPE", 13), ("ALRM", 14),
    ("TERM", 15), ("STKFLT", 16), ("CHLD", 17), ("CONT", 18), ("STOP", 19), ("TSTP", 20), ("TTIN", 21),
    ("TTOU", 22), ("URG", 23), ("XCPU", 24), ("XFSZ", 25), ("VTALRM", 26), ("PROF", 27),
    ("WINCH", 28), ("POLL", 29), ("PWR", 30), ("SYS", 31)]

/-- The number of a signal that is given by name or number. -/
def signalNumber? (b : Bytes) : Option Nat :=
  match Text.digits? 10 b with
  | some n => if n < 65 then some n else none
  | none => signals.lookup (String.ofList ((Utf8.charsLossy b).map Char.toUpper))

/-- Reads a line of the input; there is none at its end. -/
def readLine (sh : Shell) : Flow × Option Bytes × Shell :=
  let line := sh.input.takeWhile (· != 0x0A)
  if line.length < sh.input.length then
    (.next, some line, { sh with input := sh.input.drop (line.length + 1) })
  else if sh.inputClosed then (.next, none, sh)
  else (.waiting, none, sh)

/-- The bytes of a line, of which a backslash quotes the next. -/
def unquoted : Bytes → List PatternByte
  | [] => []
  | 0x5C :: b :: bs => (b, true) :: unquoted bs
  | 0x5C :: [] => []
  | b :: bs => (b, false) :: unquoted bs

/-- Reads a line for `read`: a backslash at its end joins the next one, unless lines are raw. -/
def readJoined (raw : Bool) : Nat → Bytes → Shell → Flow × Bool × Bytes × Shell
  | 0, begun, sh => (.next, false, begun, sh)
  | fuel + 1, begun, sh =>
    match readLine sh with
    | (.next, some line, rest) =>
      let marks := (line.reverse.takeWhile (· == 0x5C)).length
      if !raw && marks % 2 == 1 then readJoined raw fuel (begun ++ line.dropLast) rest
      else (.next, true, begun ++ line, rest)
    | (.next, none, rest) => (.next, false, begun ++ rest.input, { rest with input := [] })
    | (flow, _, sh) => (flow, false, begun, sh)

/-- Assigns the fields of a line to names, the last of which gets all that is left. -/
def assignFields (separators : Bytes) : List String → List PatternByte → Shell → Shell
  | [], _, sh => sh
  | name :: names, line, sh =>
    let isBlank (p : PatternByte) : Bool :=
      !p.2 && separators.contains p.1 && (p.1 == 0x20 || p.1 == 0x09 || p.1 == 0x0A)
    let isSeparator (p : PatternByte) : Bool := !p.2 && separators.contains p.1
    let line := line.dropWhile isBlank
    let field := line.takeWhile (!isSeparator ·)
    let blanks := (line.drop field.length).dropWhile isBlank
    let rest :=
      match blanks with
      | p :: rest => if isSeparator p then rest.dropWhile isBlank else p :: rest
      | [] => []
    if names.isEmpty then
      let trimmed := (line.reverse.dropWhile isBlank).reverse
      sh.assign name ((if rest.isEmpty then field else trimmed).map (·.1))
    else assignFields separators names rest (sh.assign name (field.map (·.1)))

/-- The input as a source; none while it may go on. -/
def inputSource (sh : Shell) : Option (Source × Shell) :=
  if sh.inputClosed then some ({ content := sh.input }, { sh with input := [] }) else none

/-- The source that an operand names, of which a dash is the input: nothing comes of it while the input
may go on, and there may be no such file. -/
def source (f : Bytes) (sh : Shell) : Option (Option Source × Shell) :=
  if f == bytesOf "-" || f == bytesOf "/dev/stdin" then
    (inputSource sh).map fun (s, sh) => (some s, sh)
  else if f == bytesOf "/dev/null" then some (some { name := f, content := [] }, sh)
  else some ((sh.files.find? (sh.resolve f)).map fun b => { name := f, content := b }, sh)

/-- The sources that operands name, and the operands that name none. -/
def namedSources : List Bytes → Shell → Option (List Source × List Bytes × Shell)
  | [], sh => some ([], [], sh)
  | f :: fs, sh =>
    (source f sh).bind fun (s, sh) =>
      (namedSources fs sh).map fun (more, missing, sh) =>
        match s with
        | some s => (s :: more, missing, sh)
        | none => (more, f :: missing, sh)

/-- The sources of a utility, which is the input if no operand names one. -/
def sources (operands : List Bytes) (sh : Shell) : Option (List Source × List Bytes × Shell) :=
  if operands.isEmpty then (inputSource sh).map fun (s, sh) => ([s], [], sh)
  else namedSources operands sh

/-- Says which files a utility did not find. -/
def reportMissing (name : String) (missing : List Bytes) (sh : Shell) : Shell :=
  missing.foldl (fun sh f =>
    let f := Utf8.decodeLossy f
    let subject :=
      if name = "head" || name = "tail" then ": cannot open '" ++ f ++ "' for reading"
      else if name = "sort" then ": cannot read: " ++ f
      else if name = "sed" then ": can't read " ++ f
      else ": " ++ f
    (sh.complain (name ++ subject ++ ": No such file or directory") 1).2) sh

/-- Runs a filter on its sources. -/
def runFilter (name : String) (f : Filter) (operands : List Bytes) (sh : Shell) : Flow × Shell :=
  match sources operands sh with
  | none => (.waiting, sh)
  | some (found, missing, sh) =>
    let failure := if name = "grep" || name = "sed" || name = "sort" then 2 else 1
    let (b, status) := if found.isEmpty && !missing.isEmpty then ([], failure) else f found
    (reportMissing name missing sh).print b (if missing.isEmpty then status else max status failure)

/-- Takes the first lines or bytes of the input, which may go on beyond them. Of an input that is no
file all that has come is taken. -/
def takeHead (args : List Bytes) (sh : Shell) : Flow × Shell :=
  let g := given "nc" (spellCount args)
  let (taken, enough) : Bytes × Bool :=
    match g.number? 'c' with
    | some n => (sh.input.take n.toNat, n.toNat ≤ sh.input.length)
    | none =>
      let n := ((g.number? 'n').getD 10).toNat
      let runs := (lineRuns sh.input).take n
      (runs.flatten, runs.length == n && (n == 0 || (runs.getLast?.bind List.getLast?) == some 0x0A))
  if enough || sh.inputClosed then
    let used := if sh.inputIsFile || g.has 'c' then taken.length else max taken.length (min sh.input.length 8192)
    { sh with input := sh.input.drop used }.print taken 0
  else (.waiting, sh)

/-- Copies the input as far as it has come, to files too. -/
def copyInput (paths : List String) (sh : Shell) : Flow × Shell :=
  let b := sh.input
  let sh := { sh with input := [] }
  let sh := paths.foldl (fun sh p => sh.perform (.append p b)) sh
  let (flow, sh) := sh.print b 0
  if sh.inputClosed then (flow, sh) else (.waiting, sh)

/-- Copies files, of which a dash is the input. -/
def copyFiles (status : Nat) : List Bytes → Shell → Flow × Shell
  | [], sh => sh.withStatus status
  | f :: fs, sh =>
    if f == bytesOf "-" || f == bytesOf "/dev/stdin" then
      match copyInput [] sh with
      | (.next, sh) => copyFiles (max status sh.status) fs sh
      | r => r
    else if f == bytesOf "/dev/null" then copyFiles status fs sh
    else
      match sh.files.find? (sh.resolve f) with
      | some b => copyFiles status fs (sh.print b 0).2
      | none =>
        let reason :=
          if sh.hasDirectory (sh.resolve f) then ": Is a directory" else ": No such file or directory"
        copyFiles 1 fs (sh.complain ("cat: " ++ Utf8.decodeLossy f ++ reason) 1).2

/-- Applies the options of `set`; none if one is not known. -/
def setOptions (on : Bool) : List Char → Shell → Option Shell
  | [], sh => some sh
  | 'e' :: cs, sh => setOptions on cs { sh with exitOnError := on }
  | 'u' :: cs, sh => setOptions on cs { sh with unsetIsError := on }
  | 'f' :: cs, sh => setOptions on cs { sh with noFileNames := on }
  | 'x' :: cs, sh => setOptions on cs { sh with tracing := on }
  | c :: cs, sh => if "aCbhmnvVEI".toList.contains c then setOptions on cs sh else none

/-- Applies the arguments of `set`. -/
def setArgs : Nat → List Bytes → Shell → Option Shell
  | 0, _, sh => some sh
  | _ + 1, [], sh => some sh
  | fuel + 1, a :: args, sh =>
    let on := a.head? == some 0x2D
    if a == bytesOf "--" then some { sh with args }
    else if a == bytesOf "-o" || a == bytesOf "+o" then
      match (args.head?.map Utf8.decodeLossy) with
      | some "errexit" => setArgs fuel args.tail { sh with exitOnError := on }
      | some "nounset" => setArgs fuel args.tail { sh with unsetIsError := on }
      | some "noglob" => setArgs fuel args.tail { sh with noFileNames := on }
      | some "pipefail" => none
      | _ => setArgs fuel args.tail sh
    else if (on || a.head? == some 0x2B) && a.length > 1 then
      (setOptions on (Utf8.charsLossy (a.drop 1)) sh).bind fun sh => setArgs fuel args sh
    else some { sh with args := a :: args }

/-- Splits an argument at its first equals sign. -/
def assignmentArg (a : Bytes) : String × Option Bytes :=
  let n := a.takeWhile (· != 0x3D)
  (Utf8.decodeLossy n, if n.length < a.length then some (a.drop (n.length + 1)) else none)

/-- The arguments of a command that are no options. -/
def withoutOptions (args : List Bytes) : List Bytes := args.dropWhile fun a => a.head? == some 0x2D

/-- The utilities that the shell itself has. -/
def ownUtilities : List String :=
  [".", ":", "[", "alias", "break", "cd", "command", "continue", "echo", "eval", "exec", "exit",
    "export", "false", "getopts", "hash", "jobs", "kill", "local", "printf", "pwd", "read", "readonly",
    "return", "set", "shift", "test", "times", "trap", "true", "type", "ulimit", "umask", "unalias",
    "unset", "wait"]

/-- The utilities whose assignments stay. -/
def specialUtilities : List String :=
  [".", ":", "break", "continue", "eval", "exec", "exit", "export", "readonly", "return", "set", "shift",
    "times", "trap", "unset"]

/-- The programs of the system. -/
def systemPrograms : List String :=
  ["[", "basename", "cat", "chmod", "cmp", "cp", "cut", "dd", "dirname", "echo", "egrep", "env", "expr",
    "false", "fgrep", "grep", "head", "ls", "mkdir", "mv", "od", "printenv", "printf", "pwd",
    "readlink", "realpath", "rev", "rm", "rmdir", "sed", "seq", "sh", "sha1sum", "sleep", "sort", "sync",
    "tac", "tail", "tee", "test", "touch", "tr", "true", "uniq", "wc", "which", "xargs", "yes"]

/-- Runs a utility that changes the shell, if there is one of this name. -/
def shellUtility (name : String) (args : List Bytes) (sh : Shell) : Option (Flow × Shell) :=
  /- The count that the argument gives, or the one given. -/
  let count (standard : Nat) : Option Nat :=
    match args.head? with
    | some a => Text.digits? 10 a
    | none => some standard
  let badNumber : Flow × Shell :=
    sh.abort (name ++ ": Illegal number: " ++ Utf8.decodeLossy (args.headD []))
  match name with
  | "umask" => some (sh.print (if args.isEmpty then bytesOf "0022\n" else []) 0)
  | ":" | "true" | "ulimit" | "times" | "hash" | "alias" | "unalias" | "jobs" =>
    some (sh.withStatus 0)
  | "false" => some (sh.withStatus 1)
  | "set" =>
    some <|
      match setArgs (args.length + 1) args sh with
      | some sh => sh.withStatus 0
      | none => sh.abort "set: Illegal option"
  | "shift" =>
    some <|
      match count 1 with
      | none => badNumber
      | some n =>
        if n ≤ sh.args.length then { sh with args := sh.args.drop n }.withStatus 0
        else sh.abort "shift: can't shift that many"
  | "unset" =>
    let functions := args.head? == some (bytesOf "-f")
    let names := (withoutOptions args).map Utf8.decodeLossy
    some <| Shell.withStatus
      (if functions then { sh with functions := sh.functions.filter (!names.contains ·.1) }
        else { sh with bindings := sh.bindings.filter (!names.contains ·.1) }) 0
  | "export" | "readonly" =>
    some <| Shell.withStatus ((withoutOptions args).foldl (fun sh a =>
      let (n, v) := assignmentArg a
      let sh := v.elim sh (sh.assign n)
      if name = "export" then sh.mark n else sh) sh) 0
  | "local" =>
    some <| Shell.withStatus (args.foldl (fun sh a =>
      let (n, v) := assignmentArg a
      let sh := { sh with saved := (n, sh.bindings.lookup n) :: sh.saved }
      v.elim sh (sh.assign n)) sh) 0
  | "cd" =>
    let path := sh.resolve ((withoutOptions args).headD ((sh.bindings.lookup "HOME").getD []))
    some <|
      if sh.hasDirectory path || !path.startsWith "/" && (sh.files.find? path).isNone then
        ({ sh with directory := path }.assign "PWD" (bytesOf path)).withStatus 0
      else sh.report ("cd: can't cd to " ++ Utf8.decodeLossy (args.headD [])) 2
  | "pwd" => some (sh.print (bytesOf (sh.directory ++ "\n")) 0)
  | "break" | "continue" =>
    some <|
      match count 1 with
      | none => badNumber
      | some n =>
        if sh.loops = 0 then sh.withStatus 0
        else
          let n := min n sh.loops
          (if name = "break" then .leaveLoop n else .nextTurn n, { sh with status := 0 })
  | "exit" | "return" =>
    some <|
      match count sh.status with
      | none => badNumber
      | some n => (if name = "exit" then .exit else .leaveFunction, { sh with status := n % 256 })
  | "trap" =>
    let signalsOf (bs : List Bytes) : List Nat := bs.filterMap signalNumber?
    let set (action : Option Bytes) (bs : List Bytes) : Shell :=
      let ns := signalsOf bs
      let kept := sh.traps.filter (!ns.contains ·.1)
      { sh with traps := action.elim kept fun a => ns.map (fun n => (n, a)) ++ kept }
    some <|
      match args with
      | [] => sh.withStatus 0
      | [a] => (set none [a]).withStatus 0
      | a :: bs =>
        if a == bytesOf "-" then (set none bs).withStatus 0
        else if (Text.digits? 10 a).isSome then (set none (a :: bs)).withStatus 0
        else (set (some a) bs).withStatus 0
  | "wait" =>
    some <| sh.withStatus <|
      match args with
      | [] => 0
      | a :: _ => if a == Shell.backgroundNumber then sh.background else 127
  | "read" =>
    let raw := args.head? == some (bytesOf "-r")
    let names := (withoutOptions args).map Utf8.decodeLossy
    some <|
      if names.isEmpty then sh.report "read: arg count" 2
      else
        match readJoined raw (sh.input.length + 1) [] sh with
        | (.next, whole, line, rest) =>
          let bytes := if raw then line.map fun b => (b, false) else unquoted line
          (assignFields sh.separators names bytes rest).withStatus (if whole then 0 else 1)
        | (flow, _, _, _) => (flow, sh)
  | "type" =>
    some <|
      let n := Utf8.decodeLossy (args.headD [])
      if sh.functions.any (·.1 == n) then sh.print (bytesOf (n ++ " is a shell function\n")) 0
      else if ownUtilities.contains n then sh.print (bytesOf (n ++ " is a shell builtin\n")) 0
      else if systemPrograms.contains n then
        sh.print (bytesOf (n ++ " is /usr/bin/" ++ n ++ "\n")) 0
      else sh.print (bytesOf (n ++ ": not found\n")) 127
  | _ => none

/-- What `expr` prints, and its status. -/
def exprOf (args : List Bytes) : Bytes × Nat :=
  let valued (b : Bytes) : Bytes × Nat := (b ++ [0x0A], if b.isEmpty || b == bytesOf "0" then 1 else 0)
  let number (n : Int) : Bytes × Nat := valued (bytesOf (toString n))
  let truth (b : Bool) : Bytes × Nat := number (if b then 1 else 0)
  match args with
  | [a] => valued a
  | [op, a] => if op == bytesOf "length" then number a.length else ([], 2)
  | [a, op, b] =>
    let ints := match (Utf8.decodeLossy a).toInt?, (Utf8.decodeLossy b).toInt? with
      | some m, some n => some (m, n)
      | _, _ => none
    let arithmetic (f : Int → Int → Int) : Bytes × Nat :=
      ints.elim ([], 2) fun (m, n) => number (f m n)
    let compare (f : Int → Int → Bool) (g : Bytes → Bytes → Bool) : Bytes × Nat :=
      truth (ints.elim (g a b) fun (m, n) => f m n)
    match Utf8.decodeLossy op with
    | "+" => arithmetic (· + ·)
    | "-" => arithmetic (· - ·)
    | "*" => arithmetic (· * ·)
    | "/" => if ints.any (·.2 == 0) then ([], 2) else arithmetic Int.tdiv
    | "%" => if ints.any (·.2 == 0) then ([], 2) else arithmetic Int.tmod
    | "=" => compare (· == ·) (· == ·)
    | "!=" => compare (· != ·) (· != ·)
    | "<" => compare (decide <| · < ·) (decide <| · < ·)
    | "<=" => compare (decide <| · ≤ ·) (decide <| · ≤ ·)
    | ">" => compare (decide <| · > ·) (decide <| · > ·)
    | ">=" => compare (decide <| · ≥ ·) (decide <| · ≥ ·)
    | "|" => valued (if a.isEmpty || a == bytesOf "0" then b else a)
    | "&" => valued (if a.isEmpty || a == bytesOf "0" || b.isEmpty || b == bytesOf "0" then bytesOf "0" else a)
    | ":" =>
      match Regex.read false b with
      | none => ([], 2)
      | some r =>
        match (Regex.sequence .lineStart r).find? a with
        | none => if b.contains 0x28 then valued [] else number 0
        | some m =>
          match m.groups.lookup 1 with
          | some t => valued t
          | none => number m.text.length
    | _ => ([], 2)
  | _ => ([], 2)

/-- The numbers from one to another. -/
def countUp (low step high : Int) : List Int :=
  if step = 0 then []
  else (List.range ((high - low) / step + 1).toNat).map fun (i : Nat) => low + step * (i : Int)

/-- Runs a utility that works on files, if there is one of this name. -/
def fileUtility (name : String) (args : List Bytes) (sh : Shell) : Option (Flow × Shell) :=
  let g := given "" args
  let paths := g.operands.map sh.resolve
  let missing (path : Bytes) (lead : String) (status : Nat) (sh : Shell) : Shell :=
    (sh.complain (lead ++ "'" ++ Utf8.decodeLossy path ++ "': No such file or directory") status).2
  match name with
  | "chmod" | "sync" => some (sh.withStatus 0)
  | "touch" => some <| (paths.foldl (fun sh p => sh.perform (.append p [])) sh).withStatus 0
  | "mkdir" =>
    some <|
      if !g.has 'p' && paths.any sh.hasDirectory then
        sh.complain "mkdir: cannot create directory: File exists" 1
      else (paths.foldl (fun sh p => sh.perform (.makeDirectory p)) sh).withStatus 0
  | "rm" | "rmdir" =>
    let there (p : String) : Bool := (sh.files.find? p).isSome || sh.files.hasDirectory p
    let absent := (g.operands.zip paths).filter fun (_, p) => !there p
    let sh := paths.foldl (fun sh p => if there p then sh.perform (.remove p) else sh) sh
    some <|
      if absent.isEmpty || g.has 'f' then sh.withStatus 0
      else
        (absent.foldl (fun sh (a, _) => missing a (name ++ ": cannot remove ") 1 sh) sh).withStatus 1
  | "cp" | "mv" =>
    some <|
      match g.operands with
      | [source, target] =>
        match sh.files.find? (sh.resolve source) with
        | none => (missing source (name ++ ": cannot stat ") 1 sh).withStatus 1
        | some b =>
          let path := sh.resolve target
          let path :=
            if sh.hasDirectory path then path ++ "/" ++ Utf8.decodeLossy (baseName source) else path
          let sh := (sh.perform (.create path)).perform (.append path b)
          (if name = "mv" then sh.perform (.remove (sh.resolve source)) else sh).withStatus 0
      | _ => sh.complain (name ++ ": missing operand") 1
  | "ls" =>
    let listed := if g.operands.isEmpty then [bytesOf "."] else g.operands
    let found := listed.filter fun a =>
      (sh.files.find? (sh.resolve a)).isSome || sh.hasDirectory (sh.resolve a)
    let lines := found.flatMap fun a =>
      if (sh.files.find? (sh.resolve a)).isSome || g.has 'd' then [a]
      else (sh.namesIn (sh.resolve a)).filter fun n => g.has 'a' || g.has 'A' || n.head? != some 0x2E
    let absent := listed.filter (!found.contains ·)
    let sh := absent.foldl (fun sh a => missing a "ls: cannot access " 2 sh) sh
    some (sh.print (unlines lines) (if absent.isEmpty then 0 else 2))
  | "cmp" =>
    some <|
      match g.operands.map fun a => sh.files.find? (sh.resolve a) with
      | [some a, some b] => sh.withStatus (if a == b then 0 else 1)
      | _ => sh.withStatus 2
  | "realpath" | "readlink" => some (sh.print (unlines (paths.map bytesOf)) 0)
  | "dd" =>
    let value? (key : String) : Option Bytes := args.findSome? (Text.after? (bytesOf key) ·)
    let size := ((value? "bs=").bind (Text.digits? 10)).getD 512
    let limit := ((value? "count=").bind (Text.digits? 10)).map (size * ·)
    let source : Option (Bytes × Bool) :=
      match value? "if=" with
      | none => some (sh.input, sh.inputClosed)
      | some f =>
        if f == bytesOf "/dev/zero" then some (List.replicate (limit.getD 0) 0, true)
        else if f == bytesOf "/dev/null" then some ([], true)
        else (sh.files.find? (sh.resolve f)).map fun b => (b, true)
    some <|
      match source with
      | none => sh.complain "dd: failed to open: No such file or directory" 1
      | some (b, closed) =>
        let taken := limit.elim b b.take
        if !closed && limit.all (b.length < ·) then (.waiting, sh)
        else
          let sh := if (value? "if=").isNone then { sh with input := sh.input.drop taken.length } else sh
          match value? "of=" with
          | some f =>
            if f == bytesOf "/dev/null" then sh.withStatus 0
            else ((sh.perform (.create (sh.resolve f))).perform (.append (sh.resolve f) taken)).withStatus 0
          | none => sh.print taken 0
  | _ => none

/-- How many bytes `yes` prints: more than any command takes that ends. -/
def repetitionBound : Nat := 262144

/-- Runs a utility that prints, if there is one of this name. -/
def printingUtility (name : String) (args : List Bytes) (sh : Shell) : Option (Flow × Shell) :=
  let testing (args : List Bytes) : Flow × Shell :=
    match condition sh.files sh.resolve args with
    | .ok b => sh.withStatus (if b then 0 else 1)
    | .error e => sh.report (name ++ ": " ++ e.message) 2
  match name with
  | "echo" => some (sh.print (echo args) 0)
  | "/bin/echo" | "/usr/bin/echo" =>
    let bare := args.head? == some (bytesOf "-n")
    some (sh.print (joinArgs (if bare then args.tail else args) ++ if bare then [] else [0x0A]) 0)
  | "printf" =>
    let args := if args.head? == some (bytesOf "--") then args.tail else args
    some <|
      match args with
      | [] => sh.report "printf: usage: printf format [arg ...]" 2
      | fs :: args =>
        let p := format fs args.length args
        let sh := p.unknown.elim sh fun d => (sh.report ("printf: %" ++ Utf8.decodeLossy [d] ++ ": invalid directive") 2).2
        sh.print p.text p.status
  | "test" => some (testing args)
  | "[" =>
    some <|
      if args.getLast? == some (bytesOf "]") then testing args.dropLast
      else sh.report "[: missing ]" 2
  | "basename" | "dirname" | "sleep" =>
    if args.isEmpty then
      some (sh.complain (name ++ ": missing operand\nTry '" ++ name ++ " --help' for more information.") 1)
    else if name = "sleep" then some (sh.withStatus 0)
    else if name = "dirname" then some (sh.print (unlines (args.map dirName)) 0)
    else some (sh.print (dropEnding (args.getD 1 []) (baseName (args.headD [])) ++ [0x0A]) 0)
  | "expr" =>
    let (b, status) := exprOf args
    some (sh.print b status)
  | "seq" =>
    let ns := args.map fun a => (integer a).1
    let lines (l : List Int) : Flow × Shell := sh.print (unlines (l.map fun n => bytesOf (toString n))) 0
    some <|
      match ns with
      | [high] => lines (countUp 1 1 high)
      | [low, high] => lines (countUp low 1 high)
      | [low, step, high] => lines (countUp low step high)
      | _ => sh.complain "seq: missing operand" 1
  | "yes" =>
    let line := (if args.isEmpty then bytesOf "y" else joinArgs args) ++ [0x0A]
    some (sh.print (List.replicate (repetitionBound / line.length) line).flatten 0)
  | "printenv" =>
    let n := Utf8.decodeLossy (args.headD [])
    some <|
      match if sh.exported.contains n then sh.bindings.lookup n else none with
      | some v => sh.print (v ++ [0x0A]) 0
      | none => sh.withStatus 1
  | "which" =>
    let found := args.filter fun a => systemPrograms.contains (Utf8.decodeLossy a)
    some (sh.print (unlines (found.map (bytesOf "/usr/bin/" ++ ·)))
      (if found.length == args.length then 0 else 1))
  | _ => none

/-- Runs a utility that reads, if there is one of this name. -/
def readingUtility (name : String) (args : List Bytes) (sh : Shell) : Option (Flow × Shell) :=
  match name with
  | "cat" =>
    let g := given "" args
    some <|
      if g.has 'n' then runFilter name numberFilter g.operands sh
      else if g.operands.isEmpty then copyInput [] sh
      else copyFiles 0 g.operands sh
  | "tee" =>
    let g := given "" args
    let paths := g.operands.map sh.resolve
    let sh := if g.has 'a' then sh else paths.foldl (fun sh p => sh.perform (.create p)) sh
    some (copyInput paths sh)
  | "head" =>
    let g := given "nc" (spellCount args)
    if g.operands.isEmpty then some (takeHead args sh)
    else if g.operands == [bytesOf "/dev/zero"] then
      some (sh.print (List.replicate ((g.number? 'c').getD 0).toNat 0) 0)
    else (filter? name args).map fun (f, operands) => runFilter name f operands sh
  | "sed" =>
    some <|
      match Edit.ofArgs args with
      | some (f, operands) => runFilter name f operands sh
      | none => sh.complain "sed: -e expression #1: unknown command" 1
  | _ => (filter? name args).map fun (f, operands) => runFilter name f operands sh

/-- Runs a utility, if there is one of this name. -/
def utility (name : String) (args : List Bytes) (sh : Shell) : Option (Flow × Shell) :=
  (shellUtility name args sh).orElse fun _ =>
    (printingUtility name args sh).orElse fun _ =>
      (fileUtility name args sh).orElse fun _ => readingUtility name args sh

end GitRemote.Script
