import GitRemote.Pathspec.Error
import GitRemote.Text.Blank

/-!
# Pathspec items

An item is a path pattern with magic: `literal` takes wildcards as they are, `glob` keeps them within
a path component, `icase` ignores the case of ASCII letters, `exclude` removes matches. Magic is
written in front of the pattern, as words in `:(...)` or as signs after a colon.
-/

namespace GitRemote

/-- How a pattern is to be taken. -/
structure Magic where
  literal : Bool := false
  glob : Bool := false
  icase : Bool := false
  exclude : Bool := false
  deriving DecidableEq, Repr

/-- The bytes that make a pattern more than a path. -/
def isWildcard (b : UInt8) : Bool := b == 0x2A || b == 0x3F || b == 0x5B || b == 0x5C

/-- The number of bytes before the first wildcard. -/
def plainLength (pattern : Bytes) : Nat := (pattern.takeWhile (!isWildcard ·)).length

/-- One pattern of a pathspec. -/
structure PathspecItem where
  pattern : Bytes
  /-- The element as it was written. -/
  written : String
  magic : Magic
  deriving DecidableEq, Repr

namespace PathspecItem

/-- The length of the leading part that is compared as it is. -/
def plainLength (item : PathspecItem) : Nat :=
  if item.magic.literal then item.pattern.length else GitRemote.plainLength item.pattern

/-- Whether there is a wildcard behind the plain part. -/
def hasWildcard (item : PathspecItem) : Bool := item.plainLength < item.pattern.length

/-- Whether a plain part, one star and a plain rest make up the pattern. -/
def isOneStar (item : PathspecItem) : Bool :=
  !item.magic.glob &&
    match item.pattern.drop item.plainLength with
    | b :: rest => b == 0x2A && !rest.any isWildcard
    | [] => false

/-- The item of a bare pattern. -/
def ofPattern (pattern : Bytes) (magic : Magic) : PathspecItem :=
  ⟨pattern, Utf8.decodeLossy pattern, magic⟩

end PathspecItem

/-- Adds a magic word. The word `top` is known and changes nothing, since every path starts at the
top. -/
def Magic.add (m : Magic) (word : String) : Except PathspecError Magic :=
  if word = "literal" then .ok { m with literal := true }
  else if word = "glob" then .ok { m with glob := true }
  else if word = "icase" then .ok { m with icase := true }
  else if word = "exclude" then .ok { m with exclude := true }
  else if word = "top" then .ok m
  else .error (.unknownMagic word)

/-- The magic of a list of words; empty words are passed over. -/
def Magic.ofWords : Magic → List String → Except PathspecError Magic
  | m, [] => .ok m
  | m, word :: rest =>
    let word := Text.trim word
    if word.isEmpty then ofWords m rest
    else
      match m.add word with
      | .error e => .error e
      | .ok m => ofWords m rest

/-- Reads magic signs: `!` and `^` exclude, `/` changes nothing, a colon ends them, and so does any
other character, which belongs to the pattern. -/
def Magic.ofSigns (m : Magic) : List Char → Magic × List Char
  | [] => (m, [])
  | c :: rest =>
    if c == '!' || c == '^' then ofSigns { m with exclude := true } rest
    else if c == '/' then ofSigns m rest
    else if c == ':' then (m, rest)
    else (m, c :: rest)

/-- The magic at the front of an element, and the pattern after it. -/
def Magic.split (spec : String) : Except PathspecError (Magic × List Char) :=
  match spec.toList with
  | ':' :: '(' :: long =>
    match Text.cut? (· == ')') long with
    | none => .error (.unclosedMagic spec)
    | some (words, pattern) =>
      match Magic.ofWords {} (Text.fields ',' (String.ofList words)) with
      | .error e => .error e
      | .ok m => .ok (m, pattern)
  | ':' :: short => .ok (Magic.ofSigns {} short)
  | cs => .ok ({}, cs)

/-- Reads one element with its magic. -/
def PathspecItem.parse (spec : String) : Except PathspecError PathspecItem :=
  match Magic.split spec with
  | .error e => .error e
  | .ok (m, pattern) =>
    if m.literal && m.glob then .error (.literalGlob spec)
    else .ok ⟨Utf8.encode (String.ofList pattern), spec, m⟩

end GitRemote
