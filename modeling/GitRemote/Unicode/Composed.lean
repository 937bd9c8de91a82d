import Std.Data.HashMap
import GitRemote.Unicode.Combining
import GitRemote.Unicode.Decomposition

/-!
# Composed form

Texts that look and mean the same have one composed form: every character is taken apart, the marks
on each base are sorted by combining class, and then each base takes up the marks and letters that
it has a single character with. This is the normalization form C.
-/

namespace GitRemote.Unicode

/-- The single characters for pairs. -/
def pairTable : Std.HashMap (Nat × Nat) Nat :=
  decompositionTable.foldl (fun pairs run =>
    match run.value with
    | [a, b] => if uncomposedTable.contains run.first then pairs else pairs.insert (a, b) run.first
    | _ => pairs) ∅

/-- The single character that stands for a pair. -/
def composePair? (a b : Char) : Option Char :=
  if b.toNat < 0x300 then none
  else
    match Hangul.syllable? a.toNat b.toNat with
    | some n => some (Char.ofNat n)
    | none => pairTable[(a.toNat, b.toNat)]?.map Char.ofNat

/-- Puts a character before the marks behind it: past those of a lower class if it is a mark. -/
def insertMark (c : Char) : List Char → List Char
  | [] => [c]
  | d :: rest =>
    if 0 < combiningClass d ∧ combiningClass d < combiningClass c then d :: insertMark c rest
    else c :: d :: rest

/-- Sorts the marks on each base by class and keeps the order of those of one class. -/
def orderMarks : List Char → List Char
  | [] => []
  | c :: rest => insertMark c (orderMarks rest)

/-- Whether the marks that stay behind a base keep it from a character: one of the same class or of
a higher one is between. -/
def blocks (marks : List Char) (c : Char) : Bool :=
  match marks.getLast? with
  | none => false
  | some mark => combiningClass c ≤ combiningClass mark

/-- Composes what follows the base `base` and the marks that stay behind it. -/
def composeOnto (base : Char) (marks : List Char) : List Char → List Char
  | [] => base :: marks
  | c :: rest =>
    match if blocks marks c then none else composePair? base c with
    | some composed => composeOnto composed marks rest
    | none =>
      if combiningClass c = 0 then base :: (marks ++ composeOnto c [] rest)
      else composeOnto base (marks ++ [c]) rest

/-- Composes a text that is taken apart and sorted. Marks without a base stay as they are. -/
def compose : List Char → List Char
  | [] => []
  | c :: rest => if combiningClass c = 0 then composeOnto c [] rest else c :: compose rest

/-- The composed form of a text. -/
def composed (cs : List Char) : List Char := compose (orderMarks (cs.flatMap decompose))

end GitRemote.Unicode
