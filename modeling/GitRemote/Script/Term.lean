import GitRemote.Text.Utf8

/-!
# Terms of shell scripts

Small shell scripts as data: words with their quoting and expansions, redirections, and commands. The
text inside a command substitution, in an arithmetic expression or behind an operator of an expansion
is kept as it is written and read when it is needed.

Like all of `Script` it only serves to run commands: no result is about it, and none needs it.
-/

namespace GitRemote.Script

/-- Whether a character may be in a name. -/
def isNameChar (c : Char) : Bool := c.isAlphanum || c == '_'

/-- What an expansion does with the value of its parameter. With `orEmpty`, an empty value counts as
missing. -/
inductive Modifier where
  | plain
  /-- Another word where the value is missing. -/
  | default (orEmpty : Bool) (word : List Char)
  /-- Another word where the value is missing, which becomes the value. -/
  | assign (orEmpty : Bool) (word : List Char)
  /-- An error where the value is missing. -/
  | require (orEmpty : Bool) (word : List Char)
  /-- Another word where there is a value. -/
  | alternative (orEmpty : Bool) (word : List Char)
  /-- The value without what matches at its start, the longest match or the shortest. -/
  | dropStart (longest : Bool) (pattern : List Char)
  /-- The value without what matches at its end. -/
  | dropEnd (longest : Bool) (pattern : List Char)
  /-- The length of the value. -/
  | length
  deriving DecidableEq, Repr

/-- A piece of a word. -/
inductive Piece where
  | text (s : List Char) (quoted : Bool)
  | parameter (name : String) (modifier : Modifier) (quoted : Bool)
  /-- What a script prints. -/
  | output (script : List Char) (quoted : Bool)
  /-- The value of an arithmetic expression. -/
  | value (expression : List Char) (quoted : Bool)
  deriving DecidableEq, Repr

/-- A word before its expansion. -/
abbrev Word := List Piece

/-- What a redirection does. -/
inductive Direction where
  | read
  | write
  | append
  /-- Use another descriptor, or none. -/
  | duplicate
  /-- Read the target itself. -/
  | document
  deriving DecidableEq, Repr

/-- A redirection of a descriptor. -/
structure Redirection where
  descriptor : Nat
  direction : Direction
  target : Word
  deriving DecidableEq, Repr

/-- A command of a script. -/
inductive Term where
  /-- A command of words; `below` counts the line ends from its first word on. -/
  | simple (assignments : List (String × Word)) (words : List Word) (redirections : List Redirection)
      (below : Nat)
  | redirected (body : Term) (redirections : List Redirection)
  | sequence (first second : Term)
  | both (first second : Term)
  | either (first second : Term)
  | negated (body : Term)
  | pipe (first second : Term)
  | subshell (body : Term)
  | background (body : Term)
  | branch (condition first second : Term)
  | loop (negated : Bool) (condition body : Term)
  | each (name : String) (words : Option (List Word)) (body : Term)
  | select (subject : Word) (arms : List (List Word × Term))
  /-- Gives a name to a command. -/
  | define (name : String) (body : Term)
  | nothing

end GitRemote.Script
