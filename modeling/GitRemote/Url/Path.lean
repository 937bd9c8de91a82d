import GitRemote.Text.Blank
import GitRemote.Url.Percent

/-!
# Paths of URLs

A path is read segment by segment onto the text read so far. Dot segments are resolved on the way: a
single dot leaves the path as it is, two dots drop the segment before them, and a segment that names
a drive stays.
-/

namespace GitRemote.Url

/-- Whether a character separates the parts of a path. -/
def isSeparator (special : Bool) (c : Char) : Bool := c == '/' || (special && c == '\\')

/-- Whether a segment means the directory it is in. -/
def isDot (segment : List Char) : Bool :=
  [".", "%2e"].contains (Text.lowerAscii (String.ofList segment))

/-- Whether a segment means the directory above. -/
def isDotDot (segment : List Char) : Bool :=
  ["..", "%2e.", ".%2e", "%2e%2e"].contains (Text.lowerAscii (String.ofList segment))

/-- Whether a text names a drive. -/
def isDrive (cs : List Char) : Bool :=
  match cs with
  | [c, mark] => c.isAlpha && (mark == ':' || mark == '|')
  | _ => false

/-- Whether a text names a drive in its written form. -/
def isWrittenDrive (cs : List Char) : Bool := isDrive cs && cs.getLast? == some ':'

/-- What follows the last slash of a path. -/
def lastSegment (path : List Char) : List Char := (path.reverse.takeWhile (· != '/')).reverse

/-- A path without what follows its last slash. -/
def directory (path : List Char) : List Char := path.take (path.length - (lastSegment path).length)

/-- Whether the slash at the end of a path may go: it is not the only one, and the segment before it
does not start with a drive. -/
def slashMayGo (path : List Char) : Bool :=
  path.getLast? == some '/' && path.dropLast.contains '/' &&
    !(isDrive ((lastSegment path.dropLast).take 2) &&
      ((lastSegment path.dropLast)[2]?).all ['/', '\\'].contains)

/-- A path without its last segment. A drive of a `file` URL stays. -/
def dropSegment (file : Bool) (path : List Char) : List Char :=
  let path := if slashMayGo path then path.dropLast else path
  if file && isWrittenDrive (lastSegment path) then path else directory path

/-- A path with a slash at its end. -/
def withSlash (path : List Char) : List Char :=
  if path.getLast? = some '/' then path else path ++ ['/']

/-- The parts before and after the drive that a `file` path starts with although no slash follows. -/
def cutDrive? (file : Bool) (path segment : List Char) : Option (List Char × List Char) :=
  if file && path == ['/'] && isWrittenDrive (segment.take 2) && 2 < segment.length then
    some (segment.take 2, segment.drop 2)
  else none

/-- A path with a segment behind it, and a slash if one `ended` the segment. A drive at the front of a
`file` URL is a segment and written with a colon. -/
def addSegment (file ended : Bool) (path segment : List Char) : List Char :=
  let slash := if ended then ['/'] else []
  if isDotDot segment then
    let path := dropSegment file path
    if ended then withSlash path else path
  else if isDot segment then withSlash path
  else
    match cutDrive? file path segment with
    | some (drive, rest) => path ++ drive ++ ['/'] ++ encodeIn pathSet rest ++ slash
    | none =>
      if file && path == ['/'] && isDrive segment then path ++ segment.take 1 ++ [':'] ++ slash
      else path ++ encodeIn pathSet segment ++ slash

/-- A path with segments behind it, of which all but the last end in a slash. -/
def addSegments (file : Bool) (path : List Char) : List (List Char) → List Char
  | [] => path
  | [segment] => addSegment file false path segment
  | segment :: rest => addSegments file (addSegment file true path segment) rest

/-- The segments behind the separator at the front of a path, which need not be there. -/
def segments (special : Bool) (cs : List Char) : List (List Char) :=
  Text.splitOn (isSeparator special)
    (if cs.head?.any (isSeparator special) then cs.drop 1 else cs)

/-- A path in its written form. Only outside the special schemes it can be without characters. -/
def pathText (special : Bool) (cs : List Char) : List Char :=
  if cs.isEmpty && !special then [] else addSegments false ['/'] (segments special cs)

/-- The path of a `file` URL in its written form, which starts with exactly one slash. -/
def filePath (cs : List Char) : List Char :=
  '/' :: (addSegments true ['/'] (segments true cs)).dropWhile (· == '/')

/-- Whether one of the segments behind a `file` path is a drive at its front. -/
def meetsDrive (path : List Char) : List (List Char) → Bool
  | [] => false
  | segment :: rest =>
    (path == ['/'] && isDrive segment) || meetsDrive (addSegment true true path segment) rest

end GitRemote.Url
