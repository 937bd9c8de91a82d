import GitRemote.Text.Hex

/-!
# Blanks, quoted texts and keys

What separates the parts of a settings file, and the parts that are texts: in two kinds of quotes, on
one line or on several, with escapes in one of the kinds. A key has parts with dots between them.
-/

namespace GitRemote.Config.Toml

/-- What was read and what follows it. -/
abbrev Reading (α : Type) := Option (α × List Char)

/-- Drops blanks within a line. -/
def dropSpace (cs : List Char) : List Char := cs.dropWhile fun c => c == ' ' || c == '\t'

/-- Whether a character cannot stand in a text or a comment. -/
def isControl (c : Char) : Bool := (c.toNat < 0x20 && c != '\t') || c.toNat == 0x7F

/-- Drops the end of a line, with blanks and a comment before it. -/
def lineEnd? (cs : List Char) : Option (List Char) :=
  let cs := dropSpace cs
  let cs := if cs.head? = some '#' then cs.dropWhile (!isControl ·) else cs
  match cs with
  | [] => some []
  | '\n' :: rest => some rest
  | '\r' :: '\n' :: rest => some rest
  | _ => none

/-- Drops lines that hold nothing but blanks and comments. Each is not empty, so `fuel` need not exceed
the number of characters. -/
def dropLines : Nat → List Char → List Char
  | 0, cs => cs
  | fuel + 1, cs =>
    match dropSpace cs with
    | [] => []
    | c :: rest =>
      if c = '#' || c = '\n' || c = '\r' then
        match lineEnd? (c :: rest) with
        | some later => dropLines fuel later
        | none => c :: rest
      else c :: rest

/-- Reads the character of a code point in the given number of hexadecimal digits. -/
def codePoint? (width : Nat) (cs : List Char) : Reading Char :=
  let digits := cs.take width
  if digits.length < width then none
  else
    match Text.numberIn? 16 digits with
    | some n => if n.isValidChar then some (Char.ofNat n, cs.drop width) else none
    | none => none

/-- Drops blanks and line ends. -/
def dropBlankLines : List Char → List Char
  | ' ' :: rest | '\t' :: rest | '\n' :: rest | '\r' :: '\n' :: rest => dropBlankLines rest
  | cs => cs

/-- Reads the part of an escape behind its backslash. -/
def escape : List Char → Reading Char
  | 'b' :: r => some ('\x08', r)
  | 'e' :: r => some ('\x1B', r)
  | 't' :: r => some ('\t', r)
  | 'n' :: r => some ('\n', r)
  | 'f' :: r => some ('\x0C', r)
  | 'r' :: r => some ('\r', r)
  | '"' :: r => some ('"', r)
  | '\\' :: r => some ('\\', r)
  | 'x' :: r => codePoint? 2 r
  | 'u' :: r => codePoint? 4 r
  | 'U' :: r => codePoint? 8 r
  | _ => none

/-- Reads a text up to its quote. Every step reads a character, so `fuel` need not exceed their
number. -/
def textFrom (quote : Char) : Nat → List Char → Reading (List Char)
  | 0, _ => none
  | _ + 1, [] => none
  | fuel + 1, c :: rest =>
    if c = quote then some ([], rest)
    else if isControl c then none
    else
      match if c = '\\' && quote = '"' then escape rest else some (c, rest) with
      | none => none
      | some (c, rest) => (textFrom quote fuel rest).map fun (cs, rest) => (c :: cs, rest)

/-- Reads a text of several lines up to its three quotes. Two more quotes may stand before them. -/
def longTextFrom (quote : Char) : Nat → List Char → Reading (List Char)
  | 0, _ => none
  | _ + 1, [] => none
  | fuel + 1, c :: rest =>
    let quotes := ((c :: rest).takeWhile (· == quote)).length
    if 3 ≤ quotes then
      let extra := min (quotes - 3) 2
      some (List.replicate extra quote, (c :: rest).drop (extra + 3))
    else if c = '\\' && quote = '"' then
      match lineEnd? rest with
      | some later =>
        if (dropSpace rest).head? = some '#' then none
        else longTextFrom quote fuel (dropBlankLines later)
      | none =>
        match escape rest with
        | none => none
        | some (c, rest) => (longTextFrom quote fuel rest).map fun (cs, rest) => (c :: cs, rest)
    else if c = '\r' then
      match rest with
      | '\n' :: rest => (longTextFrom quote fuel rest).map fun (cs, rest) => ('\r' :: '\n' :: cs, rest)
      | _ => none
    else if c != '\n' && isControl c then none
    else (longTextFrom quote fuel rest).map fun (cs, rest) => (c :: cs, rest)

/-- A text without the line end at its front. -/
def dropFirstLineEnd : List Char → List Char
  | '\n' :: rest => rest
  | '\r' :: '\n' :: rest => rest
  | cs => cs

/-- Reads a text in one of its four forms, of at most `fuel` characters. -/
def quoted (fuel : Nat) (cs : List Char) : Reading String :=
  let read : Reading (List Char) :=
    match cs with
    | '"' :: '"' :: '"' :: rest => longTextFrom '"' fuel (dropFirstLineEnd rest)
    | '\'' :: '\'' :: '\'' :: rest => longTextFrom '\'' fuel (dropFirstLineEnd rest)
    | '"' :: rest => textFrom '"' fuel rest
    | '\'' :: rest => textFrom '\'' fuel rest
    | _ => none
  read.map fun (cs, rest) => (String.ofList cs, rest)

/-- Whether a character can be part of a bare key. -/
def isKeyChar (c : Char) : Bool := c.isAlphanum || c == '-' || c == '_'

/-- Reads one part of a key, of at most `fuel` characters if it is in quotes. -/
def keyPart (fuel : Nat) (cs : List Char) : Reading String :=
  match cs with
  | '"' :: rest => (textFrom '"' fuel rest).map fun (cs, rest) => (String.ofList cs, rest)
  | '\'' :: rest => (textFrom '\'' fuel rest).map fun (cs, rest) => (String.ofList cs, rest)
  | _ =>
    let word := cs.takeWhile isKeyChar
    if word.isEmpty then none else some (String.ofList word, cs.drop word.length)

/-- Reads a key, whose parts have dots between them. Each part is not empty, so `fuel` need not exceed
the number of characters. -/
def key : Nat → List Char → Reading (List String)
  | 0, _ => none
  | fuel + 1, cs =>
    match keyPart fuel (dropSpace cs) with
    | none => none
    | some (part, rest) =>
      match dropSpace rest with
      | '.' :: rest => (key fuel rest).map fun (parts, rest) => (part :: parts, rest)
      | rest => some ([part], rest)

end GitRemote.Config.Toml
