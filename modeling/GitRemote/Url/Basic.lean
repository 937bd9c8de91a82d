import GitRemote.Url.Host
import GitRemote.Url.Path

/-!
# URLs

An absolute URL is read by the rules that browsers follow and has one written form: scheme and host in
lower case, no default port, no dot segments, and in every part the characters encoded that it cannot
hold. User name and password stay in their encoded form; a password without characters is none.
-/

namespace GitRemote

/-- What stands behind the two slashes of a URL. -/
structure Url.Authority where
  username : String := ""
  password : Option String := none
  host : String
  /-- Nothing if it is the default of the scheme. -/
  port : Option Nat := none
  deriving DecidableEq, Repr

/-- An absolute URL. -/
structure Url where
  scheme : String
  authority : Option Url.Authority
  path : String
  query : Option String := none
  fragment : Option String := none
  deriving DecidableEq, Repr

namespace Url

/-- The schemes with rules of their own and their default ports. -/
def specialPorts : List (String × Option Nat) :=
  [("http", some 80), ("https", some 443), ("ftp", some 21), ("ws", some 80), ("wss", some 443),
    ("file", none)]

/-- Whether a scheme has rules of its own. -/
def isSpecial (scheme : String) : Bool := specialPorts.any (·.1 == scheme)

/-- The port of a scheme if none is given. -/
def defaultPort? (scheme : String) : Option Nat := (specialPorts.lookup scheme).join

/-- Whether a character may be in a scheme, behind its first letter. -/
def isSchemeChar (c : Char) : Bool := c.isAlphanum || c == '+' || c == '-' || c == '.'

/-- The scheme of a URL and what follows its colon. -/
def scheme? (cs : List Char) : Option (String × List Char) :=
  match cs with
  | [] => none
  | c :: _ =>
    if c.isAlpha then
      match cs.dropWhile isSchemeChar with
      | ':' :: rest => some (Text.lowerAscii (String.ofList (cs.takeWhile isSchemeChar)), rest)
      | _ => none
    else none

/-- Whether a character ends the authority. -/
def endsAuthority (special : Bool) (c : Char) : Bool :=
  isSeparator special c || c == '?' || c == '#'

/-- Drops the blanks and controls at both ends, and tabs and line ends everywhere. -/
def clean (s : String) : List Char :=
  let isEdge (c : Char) : Bool := c.toNat ≤ 0x20
  ((((s.toList.dropWhile isEdge).reverse.dropWhile isEdge).reverse).filter fun c =>
    !(c == '\t' || c == '\n' || c == '\r'))

/-- The parts before and after the last at sign. -/
def cutLastAt? (cs : List Char) : Option (List Char × List Char) :=
  (Text.cut? (· == '@') cs.reverse).map fun (a, b) => (b.reverse, a.reverse)

/-- User name and password in their encoded form. -/
def userinfo (cs : List Char) : String × Option String :=
  let encoded (cs : List Char) : String := String.ofList (encodeIn userinfoSet cs)
  match Text.cut? (· == ':') cs with
  | none => (encoded cs, none)
  | some (name, []) => (encoded name, none)
  | some (name, password) => (encoded name, some (encoded password))

/-- The parts of a host with a port before and after the colon of the port; one in brackets belongs
to an address. -/
def cutPort : Bool → List Char → List Char × Option (List Char)
  | _, [] => ([], none)
  | inside, c :: rest =>
    if c = ':' && !inside then ([], some rest)
    else
      let inside := if c = '[' then true else if c = ']' then false else inside
      let (host, port) := cutPort inside rest
      (c :: host, port)

/-- The number of a port, of which `n` was read. -/
def portNumber (n : Nat) : List Char → Except UrlError Nat
  | [] => .ok n
  | c :: rest =>
    match Text.digitIn? 10 c with
    | some d => if 65535 < n * 10 + d then .error .badPort else portNumber (n * 10 + d) rest
    | none => .error .badPort

/-- The port of a URL, unless it is the default or has no digits. -/
def readPort (scheme : String) (cs : List Char) : Except UrlError (Option Nat) :=
  match portNumber 0 cs with
  | .error e => .error e
  | .ok n => .ok (if cs.isEmpty || some n == defaultPort? scheme then none else some n)

/-- Reads host and port behind user name and password, and gives what follows the port: a backslash
ends it, whatever the scheme. -/
def readHostAndPort (scheme : String) (username : String) (password : Option String)
    (cs : List Char) : Except UrlError (Authority × List Char) :=
  let special := isSpecial scheme
  let (hostText, behind) := cutPort false cs
  let portText := behind.map fun p => p.takeWhile (· != '\\')
  let rest := behind.elim [] fun p => p.dropWhile (· != '\\')
  let named := !username.isEmpty || password.isSome
  if hostText.isEmpty && (special || portText.isSome || named) then .error .emptyHost
  else
    match if special then specialHost hostText else plainHost hostText with
    | .error e => .error e
    | .ok host =>
      match portText.elim (.ok none) (readPort scheme) with
      | .error e => .error e
      | .ok port => .ok ({ username, password, host := String.ofList host, port }, rest)

/-- Reads what stands behind the two slashes, and gives what follows it. -/
def readAuthority (scheme : String) (cs : List Char) : Except UrlError (Authority × List Char) :=
  let inside := cs.takeWhile fun c => !endsAuthority (isSpecial scheme) c
  let rest := cs.drop inside.length
  let read :=
    match cutLastAt? inside with
    | none => readHostAndPort scheme "" none inside
    | some ([], []) => if rest.isEmpty then readHostAndPort scheme "" none [] else .error .emptyHost
    | some (user, host) =>
      let (username, password) := userinfo user
      readHostAndPort scheme username password host
  read.map fun (authority, behind) => (authority, behind ++ rest)

/-- The parts of a text before the query, the query, and the fragment. -/
def cutTail (special : Bool) (cs : List Char) : List Char × Option String × Option String :=
  let front := cs.takeWhile fun c => !(c == '?' || c == '#')
  let encoded (set : Char → Bool) (cs : List Char) : String := String.ofList (encodeIn set cs)
  match cs.drop front.length with
  | '?' :: rest =>
    let query := rest.takeWhile (· != '#')
    let querySet := if special then specialQuerySet else querySet
    (front, some (encoded querySet query),
      (rest.drop query.length).tail?.map (encoded fragmentSet))
  | '#' :: rest => (front, none, some (encoded fragmentSet rest))
  | _ => (front, none, none)

/-- A `file` URL. It has no host if a drive is at the front of its path. -/
def fileUrl (host : String) (cs : List Char) : Url :=
  let (front, query, fragment) := cutTail true cs
  let host := if meetsDrive ['/'] (segments true front) then "" else host
  ⟨"file", some { host }, String.ofList (filePath front), query, fragment⟩

/-- Reads a `file` URL behind its colon. What stands behind two slashes is a host unless it names a
drive; the host `localhost` is none. -/
def parseFile (cs : List Char) : Except UrlError Url :=
  match cs with
  | a :: b :: rest =>
    if isSeparator true a && isSeparator true b then
      let hostText := rest.takeWhile fun c => !endsAuthority true c
      if hostText.isEmpty || isDrive hostText then .ok (fileUrl "" rest)
      else
        match specialHost hostText with
        | .error e => .error e
        | .ok host =>
          let host := String.ofList host
          .ok (fileUrl (if host = "localhost" then "" else host) (rest.drop hostText.length))
    else .ok (fileUrl "" cs)
  | _ => .ok (fileUrl "" cs)

/-- Reads a URL that has an authority, from there on. -/
def parseAuthority (scheme : String) (cs : List Char) : Except UrlError Url :=
  match readAuthority scheme cs with
  | .error e => .error e
  | .ok (authority, rest) =>
    let special := isSpecial scheme
    let (front, query, fragment) := cutTail special rest
    .ok ⟨scheme, some authority, String.ofList (pathText special front), query, fragment⟩

/-- Reads a URL without an authority, behind its colon. A path that starts with two slashes gets a dot
segment in front, lest it look like an authority. -/
def parsePath (scheme : String) (cs : List Char) : Url :=
  let (front, query, fragment) := cutTail false cs
  let path :=
    if front.head? = some '/' then
      match pathText false front with
      | '/' :: '/' :: rest => '/' :: '.' :: '/' :: '/' :: rest
      | p => p
    else encodeIn controlSet front
  ⟨scheme, none, String.ofList path, query, fragment⟩

/-- Reads an absolute URL. -/
def parse (s : String) : Except UrlError Url :=
  match scheme? (clean s) with
  | none => .error .relative
  | some (scheme, rest) =>
    if scheme = "file" then parseFile rest
    else if isSpecial scheme then parseAuthority scheme (rest.dropWhile (isSeparator true))
    else
      match rest with
      | '/' :: '/' :: rest => parseAuthority scheme rest
      | _ => .ok (parsePath scheme rest)

/-- User name and password as they stand before the host. -/
def Authority.userinfoText (a : Authority) : String :=
  if a.username.isEmpty && a.password.isNone then ""
  else a.username ++ a.password.elim "" (":" ++ ·) ++ "@"

/-- Host and port. -/
def Authority.hostText (a : Authority) : String :=
  a.host ++ a.port.elim "" fun p => ":" ++ toString p

/-- A URL in its written form. -/
def text (u : Url) : String :=
  u.scheme ++ ":" ++ u.authority.elim "" (fun a => "//" ++ a.userinfoText ++ a.hostText) ++ u.path ++
    u.query.elim "" ("?" ++ ·) ++ u.fragment.elim "" ("#" ++ ·)

/-- The URL without user name and password. -/
def withoutUserinfo (u : Url) : Url :=
  { u with authority := u.authority.map fun a => { a with username := "", password := none } }

end Url

end GitRemote
