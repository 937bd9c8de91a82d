import GitRemote.Script.Term

/-!
# Reading shell scripts

Reads the text of a script as terms, one at a time: `next` reads the commands up to the end of a line.
All readers take a number of steps that bounds their nesting; the length of the text is enough, since
each step takes at least one character or is the last one on what is left.

Like all of `Script` it only serves to run commands: no result is about it, and none needs it.
-/

namespace GitRemote.Script

/-- A reader of the front of a text. -/
abbrev Reader (α : Type) := List Char → Option (α × List Char)

/-- Whether a character ends an unquoted word. -/
def endsWord (c : Char) : Bool := " \t\n;&|<>()".toList.contains c

/-- Drops blanks, joined lines and a comment. -/
def skipBlanks : List Char → List Char
  | ' ' :: cs => skipBlanks cs
  | '\t' :: cs => skipBlanks cs
  | '\\' :: '\n' :: cs => skipBlanks cs
  | '#' :: cs => cs.dropWhile (· != '\n')
  | cs => cs

/-- Drops blanks, comments and line ends. -/
def skipLines : Nat → List Char → List Char
  | 0, cs => cs
  | fuel + 1, cs =>
    match skipBlanks cs with
    | '\n' :: cs => skipLines fuel cs
    | cs => cs

/-- The text up to a closing quote. -/
def untilQuote (quote : Char) : Reader (List Char)
  | [] => none
  | c :: cs => if c == quote then some ([], cs) else (untilQuote quote cs).map fun (a, r) => (c :: a, r)

/-- The text up to the sign that closes an expansion; `depth` counts the open ones inside. -/
def untilClosed (opens closes : Char) : Nat → Option Char → Reader (List Char)
  | _, _, [] => none
  | depth, none, '\\' :: c :: cs =>
    (untilClosed opens closes depth none cs).map fun (a, r) => ('\\' :: c :: a, r)
  | depth, some '"', '\\' :: c :: cs =>
    (untilClosed opens closes depth (some '"') cs).map fun (a, r) => ('\\' :: c :: a, r)
  | depth, some quote, c :: cs =>
    let inside := if c == quote then none else some quote
    (untilClosed opens closes depth inside cs).map fun (a, r) => (c :: a, r)
  | depth, none, c :: cs =>
    if c == closes && depth == 0 then some ([], cs)
    else
      let depth := if c == opens then depth + 1 else if c == closes then depth - 1 else depth
      let inside := if c == '"' || c == '\'' then some c else none
      (untilClosed opens closes depth inside cs).map fun (a, r) => (c :: a, r)

/-- Whether a character is a parameter by itself. -/
def isSpecialParameter (c : Char) : Bool := c.isDigit || "@*#?$!-".toList.contains c

/-- The name of a parameter. -/
def parameterName : Reader (List Char)
  | [] => none
  | c :: cs =>
    if c.isAlpha || c == '_' then
      some ((c :: cs).takeWhile isNameChar, (c :: cs).dropWhile isNameChar)
    else if isSpecialParameter c then some ([c], cs)
    else none

/-- The name of a parameter in braces, which may be a number of more than one digit. -/
def bracedName (cs : List Char) : Option (List Char × List Char) :=
  let digits := cs.takeWhile Char.isDigit
  if digits.isEmpty then parameterName cs else some (digits, cs.drop digits.length)

/-- The text of a substitution up to the backquote that closes it. A backslash keeps a dollar sign, a
backquote, a backslash, and in quotes a quote. -/
def untilBackquote (quoted : Bool) : Reader (List Char)
  | [] => none
  | '\\' :: c :: cs =>
    let kept := c == '$' || c == '\\' || c.toNat == 0x60 || (quoted && c == '"')
    (untilBackquote quoted cs).map fun (a, r) => (if kept then c :: a else '\\' :: c :: a, r)
  | c :: cs =>
    if c.toNat == 0x60 then some ([], cs)
    else (untilBackquote quoted cs).map fun (a, r) => (c :: a, r)

/-- The operator behind a parameter in braces. -/
def modifier : List Char → Option Modifier
  | [] => some .plain
  | ':' :: '-' :: w => some (.default true w)
  | '-' :: w => some (.default false w)
  | ':' :: '=' :: w => some (.assign true w)
  | '=' :: w => some (.assign false w)
  | ':' :: '?' :: w => some (.require true w)
  | '?' :: w => some (.require false w)
  | ':' :: '+' :: w => some (.alternative true w)
  | '+' :: w => some (.alternative false w)
  | '#' :: '#' :: w => some (.dropStart true w)
  | '#' :: w => some (.dropStart false w)
  | '%' :: '%' :: w => some (.dropEnd true w)
  | '%' :: w => some (.dropEnd false w)
  | _ => none

/-- The expression of an arithmetic expansion, between its inner brackets. -/
def innerExpression? : List Char → Option (List Char)
  | '(' :: cs =>
    match untilClosed '(' ')' 0 none cs with
    | some (e, []) => some e
    | _ => none
  | _ => none

/-- An expansion behind its dollar sign; a sign that starts none stands for itself. -/
def expansion (quoted : Bool) : Reader Piece
  | '(' :: cs =>
    (untilClosed '(' ')' 0 none cs).map fun (s, r) =>
      (match innerExpression? s with
        | some e => .value e quoted
        | none => .output s quoted, r)
  | '\x7b' :: '#' :: '\x7d' :: cs => some (.parameter "#" .plain quoted, cs)
  | '\x7b' :: '#' :: cs =>
    match untilClosed '\x7b' '\x7d' 0 none cs with
    | some (name, r) => some (.parameter (String.ofList name) .length quoted, r)
    | none => none
  | '\x7b' :: cs =>
    match untilClosed '\x7b' '\x7d' 0 none cs with
    | none => none
    | some (body, r) =>
      match bracedName body with
      | none => none
      | some (name, rest) =>
        (modifier rest).map fun m => (.parameter (String.ofList name) m quoted, r)
  | cs =>
    match parameterName cs with
    | some (name, r) => some (.parameter (String.ofList name) .plain quoted, r)
    | none => some (.text ['$'] quoted, cs)

/-- The pieces inside double quotes, up to the closing one, or to the end if `closed` is not set. -/
def quotedPieces (closed : Bool) : Nat → Reader Word
  | 0, _ => none
  | _ + 1, [] => if closed then none else some ([], [])
  | fuel + 1, '"' :: cs =>
    if closed then some ([], cs)
    else (quotedPieces closed fuel cs).map fun (w, r) => (.text ['"'] true :: w, r)
  | fuel + 1, '\\' :: '\n' :: cs => quotedPieces closed fuel cs
  | fuel + 1, '\\' :: c :: cs =>
    let kept := c == '$' || c == '\\' || c.toNat == 0x60 || (closed && c == '"')
    let s := if kept then [c] else ['\\', c]
    (quotedPieces closed fuel cs).map fun (w, r) => (.text s true :: w, r)
  | fuel + 1, '$' :: cs =>
    match expansion true cs with
    | none => none
    | some (p, cs) => (quotedPieces closed fuel cs).map fun (w, r) => (p :: w, r)
  | fuel + 1, c :: cs =>
    if c.toNat == 0x60 then
      match untilBackquote closed cs with
      | none => none
      | some (s, cs) => (quotedPieces closed fuel cs).map fun (w, r) => (.output s true :: w, r)
    else (quotedPieces closed fuel cs).map fun (w, r) => (.text [c] true :: w, r)

/-- Quoted pieces with an empty text in front, so that they make a field even if they are empty. All
arguments make no field if there are none. -/
def keepQuoted (w : Word) : Word :=
  if w = [.parameter "@" .plain true] then w else .text [] true :: w

/-- The pieces of a word; inside an expansion, where `whole` is set, only the end of the text ends
it. -/
def pieces (whole : Bool) : Nat → Reader Word
  | 0, _ => none
  | _ + 1, [] => some ([], [])
  | fuel + 1, '\'' :: cs =>
    match untilQuote '\'' cs with
    | none => none
    | some (s, cs) => (pieces whole fuel cs).map fun (w, r) => (.text s true :: w, r)
  | fuel + 1, '"' :: cs =>
    match quotedPieces true (cs.length + 1) cs with
    | none => none
    | some (q, cs) => (pieces whole fuel cs).map fun (w, r) => (keepQuoted q ++ w, r)
  | fuel + 1, '\\' :: '\n' :: cs => pieces whole fuel cs
  | fuel + 1, '\\' :: c :: cs =>
    (pieces whole fuel cs).map fun (w, r) => (.text [c] true :: w, r)
  | fuel + 1, '$' :: cs =>
    match expansion false cs with
    | none => none
    | some (p, cs) => (pieces whole fuel cs).map fun (w, r) => (p :: w, r)
  | fuel + 1, c :: cs =>
    if c.toNat == 0x60 then
      match untilBackquote false cs with
      | none => none
      | some (s, cs) => (pieces whole fuel cs).map fun (w, r) => (.output s false :: w, r)
    else if !whole && endsWord c then some ([], c :: cs)
    else (pieces whole fuel cs).map fun (w, r) => (.text [c] false :: w, r)

/-- A word; it has at least one piece. -/
def word (cs : List Char) : Option (Word × List Char) :=
  match pieces false (cs.length + 1) (skipBlanks cs) with
  | some ([], _) => none
  | r => r

/-- The characters of a word that is plain text. -/
def plainText : Word → Option (List Char)
  | [] => some []
  | .text s false :: rest => (plainText rest).map (s ++ ·)
  | _ => none

/-- Whether a text starts with a reserved word, and what follows it. -/
def keyword? (k : String) (cs : List Char) : Option (List Char) :=
  match word cs with
  | some (w, rest) => if plainText w == some k.toList then some rest else none
  | none => none

/-- Takes lines up to one that is the delimiter of a document, with the text behind it. Tabs at the
start of a line do not count if they are to be dropped. -/
def documentLines (dropTabs : Bool) (delimiter : List Char) : Nat → List Char → List Char × List Char
  | 0, cs => ([], cs)
  | fuel + 1, cs =>
    if cs.isEmpty then ([], [])
    else
      let cs := if dropTabs then cs.dropWhile (· == '\t') else cs
      let line := cs.takeWhile (· != '\n')
      let rest := cs.drop (line.length + 1)
      if line == delimiter then ([], rest)
      else
        let (lines, rest) := documentLines dropTabs delimiter fuel rest
        (line ++ '\n' :: lines, rest)

/-- The characters of the delimiter of a document, and whether a part of it is quoted. -/
def delimiterText : Word → List Char × Bool
  | [] => ([], false)
  | .text s quoted :: rest =>
    let (t, q) := delimiterText rest
    (s ++ t, quoted || q)
  | _ :: rest => delimiterText rest

/-- A document behind its operator. Its lines are those behind the line of the command, and they are
taken out of the text. -/
def document (descriptor : Nat) (dropTabs : Bool) (cs : List Char) :
    Option (Redirection × List Char) :=
  match word cs with
  | none => none
  | some (w, cs) =>
    let (delimiter, quoted) := delimiterText w
    let line := cs.takeWhile (· != '\n')
    let below := cs.drop (line.length + 1)
    let (text, rest) := documentLines dropTabs delimiter (below.length + 1) below
    let body :=
      if quoted then some [.text text true]
      else (quotedPieces false (text.length + 1) text).map (·.1)
    body.map fun body => (⟨descriptor, .document, body⟩, line ++ '\n' :: rest)

/-- A redirection at the front of a text. -/
def redirection? (cs : List Char) : Option (Redirection × List Char) :=
  let cs := skipBlanks cs
  let digits := cs.takeWhile Char.isDigit
  let number? := (String.ofList digits).toNat?
  let make (standard : Nat) (d : Direction) (rest : List Char) :
      Option (Redirection × List Char) :=
    (word rest).map fun (w, r) => (⟨number?.getD standard, d, w⟩, r)
  match cs.drop digits.length with
  | '>' :: '>' :: r => make 1 .append r
  | '>' :: '&' :: r => make 1 .duplicate r
  | '>' :: '|' :: r => make 1 .write r
  | '>' :: r => make 1 .write r
  | '<' :: '<' :: '-' :: r => document (number?.getD 0) true r
  | '<' :: '<' :: r => document (number?.getD 0) false r
  | '<' :: '&' :: r => make 0 .duplicate r
  | '<' :: r => make 0 .read r
  | _ => none

/-- Redirections behind a command. -/
def redirections : Nat → List Char → List Redirection × List Char
  | 0, cs => ([], cs)
  | fuel + 1, cs =>
    match redirection? cs with
    | some (r, cs) =>
      let (rs, cs) := redirections fuel cs
      (r :: rs, cs)
    | none => ([], cs)

/-- Splits an assignment at the front of a word: a name, an equals sign, the value. -/
def assignment? (w : Word) : Option (String × Word) :=
  let plain := w.takeWhile fun
    | .text _ false => true
    | _ => false
  let text := plain.flatMap fun
    | .text s _ => s
    | _ => []
  let name := text.takeWhile isNameChar
  match text.drop name.length with
  | '=' :: value =>
    if name.isEmpty || (name.head?.any Char.isDigit) then none
    else some (String.ofList name, .text value false :: w.drop plain.length)
  | _ => none

/-- The words and redirections of a simple command. -/
def simpleParts : Nat → List Char → List Word × List Redirection × List Char
  | 0, cs => ([], [], cs)
  | fuel + 1, cs =>
    match redirection? cs with
    | some (r, cs) =>
      let (ws, rs, cs) := simpleParts fuel cs
      (ws, r :: rs, cs)
    | none =>
      match word cs with
      | some (w, cs) =>
        let (ws, rs, cs) := simpleParts fuel cs
        (w :: ws, rs, cs)
      | none => ([], [], cs)

/-- Splits the assignments off the words of a simple command. -/
def splitAssignments : List Word → List (String × Word) × List Word
  | [] => ([], [])
  | w :: ws =>
    match assignment? w with
    | some a =>
      let (as, ws) := splitAssignments ws
      (a :: as, ws)
    | none => ([], w :: ws)

/-- A simple command. -/
def simpleCommand (cs : List Char) : Option (Term × List Char) :=
  match simpleParts (cs.length + 1) cs with
  | ([], [], _) => none
  | (ws, rs, rest) =>
    let (as, ws) := splitAssignments ws
    some (.simple as ws rs (cs.count '\n'), rest)

/-- The name that a definition gives to a command, in front of a pair of brackets. -/
def definedName? (cs : List Char) : Option (String × List Char) :=
  match word cs with
  | none => none
  | some (w, cs) =>
    match plainText w, skipBlanks cs with
    | some name, '(' :: cs =>
      match skipBlanks cs with
      | ')' :: cs => some (String.ofList name, cs)
      | _ => none
    | _, _ => none

/-- Words up to the end of a command. -/
def wordList : Nat → List Char → List Word × List Char
  | 0, cs => ([], cs)
  | fuel + 1, cs =>
    match word cs with
    | some (w, cs) =>
      let (ws, cs) := wordList fuel cs
      (w :: ws, cs)
    | none => ([], cs)

/-- The patterns in front of an arm, up to the closing bracket. -/
def armPatterns : Nat → Reader (List Word)
  | 0, _ => none
  | fuel + 1, cs =>
    match word cs with
    | none => none
    | some (w, cs) =>
      match skipBlanks cs with
      | '|' :: cs => (armPatterns fuel cs).map fun (ws, r) => (w :: ws, r)
      | ')' :: cs => some ([w], cs)
      | _ => none

/-- Drops a semicolon, if one is next. -/
def skipSemicolon (cs : List Char) : List Char :=
  match skipBlanks cs with
  | ';' :: cs => cs
  | cs => cs

mutual

/-- Commands up to something that is none, or up to the end of a line. -/
def list (line : Bool) : Nat → Reader Term
  | 0, _ => none
  | fuel + 1, cs =>
    let cs := if line then skipBlanks cs else skipLines cs.length cs
    match andOr fuel cs with
    | none => some (.nothing, cs)
    | some (t, cs) =>
      match skipBlanks cs with
      | ';' :: ';' :: _ => some (t, skipBlanks cs)
      | ';' :: cs => (list line fuel cs).map fun (u, r) => (.sequence t u, r)
      | '&' :: cs => (list line fuel cs).map fun (u, r) => (.sequence (.background t) u, r)
      | '\n' :: rest =>
        if line then some (t, '\n' :: rest)
        else (list line fuel rest).map fun (u, r) => (.sequence t u, r)
      | cs => some (t, cs)

/-- Pipelines with conditions between them, which are taken from left to right. -/
def andOr : Nat → Reader Term
  | 0, _ => none
  | fuel + 1, cs =>
    match pipeline fuel cs with
    | none => none
    | some (t, cs) => conditions fuel t cs

/-- What follows a pipeline as its conditions. -/
def conditions : Nat → Term → Reader Term
  | 0, _, _ => none
  | fuel + 1, t, cs =>
    match skipBlanks cs with
    | '&' :: '&' :: cs =>
      match pipeline fuel (skipLines cs.length cs) with
      | none => none
      | some (u, cs) => conditions fuel (.both t u) cs
    | '|' :: '|' :: cs =>
      match pipeline fuel (skipLines cs.length cs) with
      | none => none
      | some (u, cs) => conditions fuel (.either t u) cs
    | _ => some (t, cs)

/-- Commands with pipes between them. -/
def pipeline : Nat → Reader Term
  | 0, _ => none
  | fuel + 1, cs =>
    match keyword? "!" cs with
    | some cs => (pipeline fuel cs).map fun (t, r) => (.negated t, r)
    | none =>
      match command fuel cs with
      | none => none
      | some (t, cs) =>
        match skipBlanks cs with
        | '|' :: '|' :: _ => some (t, cs)
        | '|' :: rest => (pipeline fuel (skipLines rest.length rest)).map fun (u, r) => (.pipe t u, r)
        | _ => some (t, cs)

/-- One command with the redirections behind it. -/
def command : Nat → Reader Term
  | 0, _ => none
  | fuel + 1, cs =>
    match compound fuel cs with
    | some (some t, cs) =>
      let (rs, cs) := redirections cs.length cs
      some (if rs.isEmpty then t else .redirected t rs, cs)
    | some (none, _) => none
    | none =>
      match definedName? cs with
      | none => simpleCommand cs
      | some (name, cs) =>
        match compound fuel (skipLines cs.length cs) with
        | some (some t, cs) =>
          let (rs, cs) := redirections cs.length cs
          some (.define name (if rs.isEmpty then t else .redirected t rs), cs)
        | _ => none

/-- A command that a reserved word starts; nothing inside if the word is not one that starts any. -/
def compound : Nat → Reader (Option Term)
  | 0, _ => none
  | fuel + 1, cs =>
    let whole (r : Option (Term × List Char)) : Option (Option Term × List Char) :=
      match r with
      | some (t, cs) => some (some t, cs)
      | none => some (none, [])
    match skipBlanks cs with
    | '(' :: cs =>
      whole <|
        match list false fuel cs with
        | some (t, ')' :: cs) => some (.subshell t, cs)
        | _ => none
    | cs =>
      match word cs with
      | none => none
      | some (w, rest) =>
        match (plainText w).map String.ofList with
        | some "\x7b" =>
          whole <| (list false fuel rest).bind fun (t, cs) => (keyword? "\x7d" cs).map fun cs => (t, cs)
        | some "if" => whole (branches fuel rest)
        | some "while" => whole (loopBody fuel false rest)
        | some "until" => whole (loopBody fuel true rest)
        | some "for" =>
          whole <|
            match word rest with
            | none => none
            | some (name, cs) =>
              let (ws, cs) : Option (List Word) × List Char :=
                match keyword? "in" cs with
                | some cs =>
                  let (ws, cs) := wordList cs.length cs
                  (some ws, cs)
                | none => (none, cs)
              let cs := skipSemicolon cs
              match keyword? "do" (skipLines cs.length cs) with
              | none => none
              | some cs =>
                (list false fuel cs).bind fun (body, cs) =>
                  (keyword? "done" cs).map fun cs =>
                    (.each (String.ofList ((plainText name).getD [])) ws body, cs)
        | some "case" =>
          whole <|
            match word rest with
            | none => none
            | some (subject, cs) =>
              (keyword? "in" (skipLines cs.length cs)).bind fun cs =>
                (arms fuel cs).map fun (as, cs) => (.select subject as, cs)
        | some k =>
          if ["then", "else", "elif", "fi", "do", "done", "esac", "\x7d", "in"].contains k then
            some (none, [])
          else none
        | none => none

/-- What follows `if` or `elif`. -/
def branches : Nat → Reader Term
  | 0, _ => none
  | fuel + 1, cs =>
    match list false fuel cs with
    | none => none
    | some (condition, cs) =>
      match keyword? "then" cs with
      | none => none
      | some cs =>
        match list false fuel cs with
        | none => none
        | some (first, cs) =>
          match keyword? "fi" cs, keyword? "else" cs, keyword? "elif" cs with
          | some cs, _, _ => some (.branch condition first .nothing, cs)
          | _, some cs, _ =>
            (list false fuel cs).bind fun (second, cs) =>
              (keyword? "fi" cs).map fun cs => (.branch condition first second, cs)
          | _, _, some cs =>
            (branches fuel cs).map fun (second, cs) => (.branch condition first second, cs)
          | _, _, _ => none

/-- What follows `while` or `until`. -/
def loopBody : Nat → Bool → Reader Term
  | 0, _, _ => none
  | fuel + 1, negated, cs =>
    match list false fuel cs with
    | none => none
    | some (condition, cs) =>
      (keyword? "do" cs).bind fun cs =>
        (list false fuel cs).bind fun (body, cs) =>
          (keyword? "done" cs).map fun cs => (.loop negated condition body, cs)

/-- The arms of a selection, up to its end. -/
def arms : Nat → Reader (List (List Word × Term))
  | 0, _ => none
  | fuel + 1, cs =>
    let cs := skipLines cs.length cs
    match keyword? "esac" cs with
    | some cs => some ([], cs)
    | none =>
      let cs :=
        match cs with
        | '(' :: cs => cs
        | _ => cs
      match armPatterns (cs.length + 1) cs with
      | none => none
      | some (ps, cs) =>
        match list false fuel cs with
        | none => none
        | some (body, cs) =>
          let cs := skipLines cs.length cs
          match cs with
          | ';' :: ';' :: cs => (arms fuel cs).map fun (as, r) => ((ps, body) :: as, r)
          | _ => (keyword? "esac" cs).map fun cs => ([(ps, body)], cs)

end

/-- Whether a text ends inside quotes. -/
def endsQuoted : Option Char → List Char → Bool
  | quote, [] => quote.isSome
  | some '\'', c :: cs => endsQuoted (if c == '\'' then none else some '\'') cs
  | quote, '\\' :: _ :: cs => endsQuoted quote cs
  | some quote, c :: cs => endsQuoted (if c == quote then none else some quote) cs
  | none, c :: cs => endsQuoted (if c == '"' || c == '\'' then some c else none) cs

/-- What is next in the text of a script. -/
inductive Next where
  | finished
  /-- A command, and the text behind it. -/
  | command (t : Term) (rest : List Char)
  /-- There is no command, or what comes behind one does not belong there. -/
  | malformed (rest : List Char)

/-- Reads the commands up to the end of a line. -/
def next (cs : List Char) : Next :=
  match skipLines cs.length cs with
  | [] => .finished
  | cs =>
    match list true (8 * cs.length + 8) cs with
    | none => .malformed []
    | some (.nothing, rest) => .malformed rest
    | some (t, rest) =>
      match rest with
      | [] => .command t []
      | '\n' :: rest => .command t rest
      | rest => .malformed rest

end GitRemote.Script
