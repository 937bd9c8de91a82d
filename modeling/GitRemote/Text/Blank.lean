import GitRemote.Text.Utf8

/-!
# Blanks, words and lines

The Unicode property White_Space, and the three ways in which text is cut by it or by line ends:
`trim` and `trimEnd` drop blanks at the ends, `words` splits at runs of blanks, `lines` splits at
line feeds and drops one carriage return before each.
-/

namespace GitRemote.Text

/-- The characters with the Unicode property White_Space. -/
def isBlank (c : Char) : Bool :=
  let n := c.toNat
  (9 ≤ n && n ≤ 13) || n == 0x20 || n == 0x85 || n == 0xA0 || n == 0x1680 ||
    (0x2000 ≤ n && n ≤ 0x200A) || n == 0x2028 || n == 0x2029 || n == 0x202F || n == 0x205F ||
    n == 0x3000

/-- Drops blanks from the front. -/
def dropBlanks (cs : List Char) : List Char := cs.dropWhile isBlank

/-- Drops blanks from the end. -/
def dropBlanksRight (cs : List Char) : List Char := (cs.reverse.dropWhile isBlank).reverse

/-- The text without blanks at its end. -/
def trimEnd (s : String) : String := String.ofList (dropBlanksRight s.toList)

/-- The text without blanks at its ends. -/
def trim (s : String) : String := String.ofList (dropBlanksRight (dropBlanks s.toList))

/-- The pieces between the elements that satisfy `p`; there is always at least one piece. -/
def splitOn {α : Type} (p : α → Bool) : List α → List (List α)
  | [] => [[]]
  | c :: rest =>
    if p c then [] :: splitOn p rest
    else
      match splitOn p rest with
      | [] => [[c]]
      | piece :: pieces => (c :: piece) :: pieces

/-- The non-empty pieces between blanks. -/
def words (s : String) : List String :=
  ((splitOn isBlank s.toList).filter (!·.isEmpty)).map String.ofList

/-- The pieces between occurrences of one character. -/
def fields (sep : Char) (s : String) : List String :=
  (splitOn (· == sep) s.toList).map String.ofList

/-- A piece without the carriage return at its end. -/
def dropReturn (cs : List Char) : List Char :=
  if cs.getLast? == some '\r' then cs.dropLast else cs

/-- The lines of a text. A line end at the end of the text starts no further line. -/
def lines (s : String) : List String :=
  let pieces := splitOn (· == '\n') s.toList
  let ended := pieces.dropLast.map dropReturn
  let last := pieces.getLast?.getD []
  (if last.isEmpty then ended else ended ++ [last]).map String.ofList

/-- The parts before and after the first element that satisfies `p`, if there is one. -/
def cut? {α : Type} (p : α → Bool) : List α → Option (List α × List α)
  | [] => none
  | c :: rest => if p c then some ([], rest) else (cut? p rest).map fun (a, b) => (c :: a, b)

/-- The parts of a text before and after the first occurrence of a character. -/
def cutAt? (sep : Char) (s : String) : Option (String × String) :=
  (cut? (· == sep) s.toList).map fun (a, b) => (String.ofList a, String.ofList b)

/-- What follows `lead` at the front of `l`, if `l` starts with it. -/
def after? {α : Type} [BEq α] : List α → List α → Option (List α)
  | [], l => some l
  | _ :: _, [] => none
  | a :: lead, b :: l => if a == b then after? lead l else none

/-- What follows `lead` at the front of a text. -/
def stripStart? (lead s : String) : Option String :=
  (after? lead.toList s.toList).map String.ofList

/-- What comes before `tail` at the end of a text. -/
def stripEnd? (tail s : String) : Option String :=
  (after? tail.toList.reverse s.toList.reverse).map fun r => String.ofList r.reverse

/-- The text with every ASCII letter in lower case. -/
def lowerAscii (s : String) : String := String.ofList (s.toList.map Char.toLower)

end GitRemote.Text
