import GitRemote.Text.Blank
import GitRemote.Text.Hex

/-!
# Tables of character properties

A property is a table of runs of code points in ascending order. Its text has one word for each run:
the first code point, a hyphen and the last if it is another one, and behind an equals sign what
the property says of the run. All numbers in it are hexadecimal.
-/

namespace GitRemote.Unicode

/-- A run of code points and what a property says of it. -/
structure Run (α : Type) where
  first : Nat
  last : Nat
  value : α
  deriving Repr

/-- The runs of a property in ascending order. -/
abbrev Table (α : Type) := Array (Run α)

/-- The words of a table's text. -/
def tableWords (text : String) : List (List Char) :=
  let pieces := text.toList.foldr (fun c words =>
    if c = ' ' || c = '\n' then [] :: words
    else
      match words with
      | [] => [[c]]
      | word :: words => (c :: word) :: words) []
  pieces.filter (!·.isEmpty)

/-- The number that a word of a table writes. -/
def tableNumber (cs : List Char) : Nat := (Text.numberIn? 16 cs).getD 0

/-- The parts of a word before and after the first `sep`, which need not be there. -/
def cutWord (sep : Char) (cs : List Char) : List Char × List Char :=
  (cs.takeWhile (· != sep), (cs.dropWhile (· != sep)).drop 1)

/-- The run that a word writes. -/
def Run.ofWord {α : Type} (value : List Char → α) (word : List Char) : Run α :=
  let (bounds, text) := cutWord '=' word
  let (first, last) := cutWord '-' bounds
  { first := tableNumber first
    last := tableNumber (if last.isEmpty then first else last)
    value := value text }

/-- The table that a text writes. -/
def Table.ofText {α : Type} (value : List Char → α) (text : String) : Table α :=
  ((tableWords text).map (Run.ofWord value)).toArray

/-- The table of a set of code points. -/
def Table.ofSet (text : String) : Table Unit := Table.ofText (fun _ => ()) text

/-- The number of runs between `low` and `high` that start at or before `n`, and of those before
`low`. -/
def Table.rankIn {α : Type} (t : Table α) (n low high : Nat) : Nat :=
  if low < high then
    let middle := (low + high) / 2
    match t[middle]? with
    | none => low
    | some run => if run.first ≤ n then t.rankIn n (middle + 1) high else t.rankIn n low middle
  else low
termination_by high - low

/-- The run that a code point is in. -/
def Table.find? {α : Type} (t : Table α) (n : Nat) : Option (Run α) :=
  match t.rankIn n 0 t.size with
  | 0 => none
  | i + 1 => t[i]?.filter (n ≤ ·.last)

/-- What a property says of a code point. -/
def Table.value? {α : Type} (t : Table α) (n : Nat) : Option α := (t.find? n).map (·.value)

/-- Whether a code point is in a set. -/
def Table.contains {α : Type} (t : Table α) (n : Nat) : Bool := (t.find? n).isSome

end GitRemote.Unicode
