import GitRemote.Text.Blank

/-!
# Capabilities

What a server can do, as words: a name, or a name and a value with an equals sign between them.
-/

namespace GitRemote

/-- The words of a capability list, in order. -/
structure Capabilities where
  words : List String := []
  deriving DecidableEq, Repr

namespace Capabilities

/-- The capabilities in a list with blanks between them. -/
def parse (list : String) : Capabilities := ⟨Text.words list⟩

/-- The value that a word gives for a name. -/
def valueIn? (name word : String) : Option String :=
  match Text.after? name.toList word.toList with
  | some ('=' :: value) => some (String.ofList value)
  | _ => none

/-- Whether a name is announced, with a value or without. -/
def has (c : Capabilities) (name : String) : Bool :=
  c.words.any fun w => w == name || (valueIn? name w).isSome

/-- The values announced for a name, in order. -/
def values (c : Capabilities) (name : String) : List String := c.words.filterMap (valueIn? name)

/-- The first value announced for a name. -/
def value? (c : Capabilities) (name : String) : Option String := (c.values name).head?

/-- The list as text. -/
def text (c : Capabilities) : String := " ".intercalate c.words

end Capabilities

end GitRemote
