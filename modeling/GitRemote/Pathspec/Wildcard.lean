import GitRemote.Pathspec.Glob
import GitRemote.Text.Blank

/-!
# Wildcards of pathspecs

Wildcards are written with backslash escapes, with `^` or `!` for a negated set, and with any number
of stars in a run. `Wildcard.toGlob` brings them into the glob dialect; a run of stars is two stars
there only where it fills a whole path component and slashes count. A pattern that is no glob is
compared as it is.
-/

namespace GitRemote.Wildcard

/-- A character that stands for itself, as a glob. -/
def literalChar (c : Char) : List Char :=
  if c == '*' || c == '?' || c == '[' || c == ']' then ['[', c, ']'] else [c]

/-- Copies the members of a set up to and including its closing bracket, without the backslashes of
escaped characters. -/
def setMembers : List Char → List Char × List Char
  | [] => ([], [])
  | ']' :: rest => ([']'], rest)
  | '\\' :: c :: rest =>
    let (out, rest) := setMembers rest
    (c :: out, rest)
  | c :: rest =>
    let (out, rest) := setMembers rest
    (c :: out, rest)

/-- A set behind its opening bracket: the sign that negates, a closing bracket that is a member, the
other members. -/
def setBody (cs : List Char) : List Char × List Char :=
  let (sign, cs) :=
    match cs with
    | '!' :: rest => (['!'], rest)
    | '^' :: rest => (['!'], rest)
    | _ => ([], cs)
  let (closing, cs) :=
    match cs with
    | ']' :: rest => ([']'], rest)
    | _ => ([], cs)
  let (members, rest) := setMembers cs
  (sign ++ closing ++ members, rest)

/-- The glob for the rest of a pattern; `before` is the character in front of it. Each step takes at
least one character, so `fuel` need not exceed their number. -/
def toGlobFrom (separate : Bool) : Nat → Option Char → List Char → List Char
  | 0, _, _ => []
  | _ + 1, _, [] => []
  | fuel + 1, _, '\\' :: c :: rest => literalChar c ++ toGlobFrom separate fuel (some c) rest
  | fuel + 1, before, '*' :: rest =>
    let more := rest.takeWhile (· == '*')
    let rest := rest.dropWhile (· == '*')
    let whole := before.all (· == '/') && rest.head?.all (· == '/')
    let stars := if separate && !more.isEmpty && whole then ['*', '*'] else ['*']
    stars ++ toGlobFrom separate fuel (some '*') rest
  | fuel + 1, _, '[' :: rest =>
    let (body, rest) := setBody rest
    '[' :: body ++ toGlobFrom separate fuel (some ']') rest
  | fuel + 1, _, c :: rest => c :: toGlobFrom separate fuel (some c) rest

/-- The glob for a pattern; with `separate`, wildcards do not match slashes. -/
def toGlob (separate : Bool) (pattern : List Char) : List Char :=
  toGlobFrom separate pattern.length none pattern

/-- Whether a pattern matches a text. -/
def matchesText (pattern text : List Char) (separate icase : Bool) : Bool :=
  match Glob.compile? (toGlob separate pattern) with
  | some tokens => Glob.run ⟨icase, separate⟩ tokens text == .matched
  | none =>
    if icase then pattern.map Char.toLower == text.map Char.toLower else pattern == text

/-- Whether a pattern matches a name, both read as text. -/
def matchesBytes (pattern name : Bytes) (separate icase : Bool) : Bool :=
  matchesText (Utf8.charsLossy pattern) (Utf8.charsLossy name) separate icase

end GitRemote.Wildcard
