import GitRemote.Unicode.Composed
import GitRemote.Unicode.Direction
import GitRemote.Unicode.Joining
import GitRemote.Url.Domain.Mapping
import GitRemote.Url.Percent
import GitRemote.Url.Punycode

/-!
# Labels of domain names

A label is the text between two dots of a domain name. It is read in any of its spellings, also in the
one that holds ASCII only, into the one text that it stands for; it is refused if it starts with a
mark, holds an invisible joiner where none has an effect, or mixes the directions of writing.
-/

namespace GitRemote.Url

/-- Whether a character cannot be part of any host. -/
def isForbiddenInHost (c : Char) : Bool :=
  "\x00\t\n\r #/:<>?@[\\]^|".toList.contains c

namespace Domain

open Unicode

/-- Whether a character cannot be part of a domain name. -/
def isForbidden (c : Char) : Bool := isForbiddenInHost c || controlSet c || c == '%'

/-- A text as a domain name holds it: characters replaced and dropped, and what is left composed. -/
def prepare? (cs : List Char) : Option (List Char) :=
  (cs.mapM mapChar).map fun pieces => composed pieces.flatten

/-- Whether a text is in ASCII. -/
def isAscii (cs : List Char) : Bool := cs.all (·.toNat < 0x80)

/-- Lets the letters around it stand apart or, behind a silenced letter, not form one. -/
def nonJoiner : Char := '\u200C'

/-- Lets the letters around it join where they would not. -/
def joiner : Char := '\u200D'

/-- Whether the nearest character that is not transparent joins in the way asked for. -/
def nearestJoins (way : Joining) (cs : List Char) : Bool :=
  match cs.dropWhile (joining · == .transparent) with
  | [] => false
  | c :: _ => joining c == way || joining c == .dual

/-- Whether a joiner has an effect behind `before`, of which the nearest character is the first. -/
def joinerAllowed (c : Char) (before after : List Char) : Bool :=
  before.head?.any isVirama ||
    (c == nonJoiner && nearestJoins .left before && nearestJoins .right after)

/-- Whether all joiners of a text behind `before` have an effect. -/
def joinersAllowed (before : List Char) : List Char → Bool
  | [] => true
  | c :: rest =>
    (!(c == nonJoiner || c == joiner) || joinerAllowed c before rest) &&
      joinersAllowed (c :: before) rest

/-- Whether a text can be a label: a long one outside ASCII cannot. -/
def isLabel (label : List Char) : Bool :=
  !label.head?.any isMark && joinersAllowed [] label && (isAscii label || label.length ≤ 1000)

/-- What stands before the rest of a label that is written in ASCII in place of other characters. -/
def asciiMark : List Char := "xn--".toList

/-- The label that ASCII characters stand for, if they are its only such spelling. -/
def readEncoded? (cs : List Char) : Option (List Char) :=
  if isAscii cs && cs.length ≤ 2000 && cs.getLast?.any (· != '-') then
    (Punycode.decode? cs).filter fun label =>
      prepare? label == some label && !label.any fun c => c == '.' || isForbidden c
  else none

/-- The label that a prepared text stands for. -/
def readLabel? (cs : List Char) : Option (List Char) :=
  let read :=
    match Text.after? asciiMark cs with
    | some encoded => readEncoded? encoded
    | none => some cs
  read.filter isLabel

/-- A label of a domain name in ASCII. -/
def asciiLabel (label : List Char) : List Char :=
  if isAscii label then label else asciiMark ++ Punycode.encode label

/-- Whether a label has a direction and keeps to it. The first character gives the direction, one of
that direction or a number ends the label, and the two kinds of numbers do not meet in a label
from right to left. -/
def keepsDirection (label : List Char) : Bool :=
  let unmarked := (label.reverse.dropWhile (direction · == .mark)).reverse.map direction
  match label.map direction with
  | [] => true
  | .left :: _ =>
    unmarked.all [.left, .europeanNumber, .mark, .neutral].contains &&
      unmarked.getLast?.all [.left, .europeanNumber].contains
  | .right :: _ =>
    unmarked.all [.right, .europeanNumber, .arabicNumber, .mark, .neutral].contains &&
      unmarked.getLast?.all [.right, .europeanNumber, .arabicNumber].contains &&
      !(unmarked.contains .europeanNumber && unmarked.contains .arabicNumber)
  | _ => false

end Domain

end GitRemote.Url
