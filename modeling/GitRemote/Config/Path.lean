import GitRemote.Config.Setting

/-!
# Paths of settings

The name of a setting can be a path: a dot and a name go into a table, a number in brackets into a list.
What has neither form is a name as it stands.
-/

namespace GitRemote.Config

/-- A place among the settings. -/
structure Path where
  /-- The setting at the top. -/
  root : String
  /-- The place is within that setting. -/
  inside : Bool
  deriving DecidableEq, Repr

namespace Path

/-- Whether a character can be part of a name in a path. -/
def isNameChar (c : Char) : Bool := c.isAlphanum || c == '_' || c == '-'

/-- Whether a text between brackets is a number, which counts from the end if it is negative. -/
def isIndex (cs : List Char) : Bool :=
  let isSpace (c : Char) : Bool := c == ' ' || c == '\t'
  let digits := ((cs.dropWhile isSpace).reverse.dropWhile isSpace).reverse
  digits.head? != some '+' &&
    (Text.integer? Setting.integerBound (String.ofList digits)).isSome

private theorem length_dropWhile_le {α : Type} (p : α → Bool) (l : List α) :
    (l.dropWhile p).length ≤ l.length := (List.dropWhile_sublist p).length_le

/-- Whether a text leads from a setting into it by any number of steps. -/
def areSteps : List Char → Bool
  | [] => true
  | '.' :: cs => cs.head?.any isNameChar && areSteps (cs.dropWhile isNameChar)
  | '[' :: cs =>
    let rest := cs.dropWhile (· != ']')
    isIndex (cs.takeWhile (· != ']')) && !rest.isEmpty && areSteps (rest.drop 1)
  | _ => false
termination_by cs => cs.length
decreasing_by
  · exact Nat.lt_succ_of_le (length_dropWhile_le ..)
  · have := length_dropWhile_le (· != ']') cs
    simp only [List.length_drop, List.length_cons]
    omega

/-- The path that a name writes. -/
def ofText (s : String) : Path :=
  let root := s.toList.takeWhile isNameChar
  let steps := s.toList.drop root.length
  if !root.isEmpty && areSteps steps then ⟨String.ofList root, !steps.isEmpty⟩ else ⟨s, false⟩

end Path

end GitRemote.Config
