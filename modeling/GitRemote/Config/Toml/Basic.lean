import GitRemote.Config.Toml.Moment
import GitRemote.Config.Toml.Number
import GitRemote.Config.Toml.Quoted
import GitRemote.Config.Toml.Table

/-!
# Settings files

A file in TOML: keys with values on lines of their own, below headers of tables, with comments. A value
is a text, a number, a truth value, a date or time, a list, or a table in braces.
-/

namespace GitRemote.Config.Toml

/-- Whether a character can be part of a number, a date or a word. -/
def isWordChar (c : Char) : Bool :=
  c.isAlphanum || c == '+' || c == '-' || c == '_' || c == '.' || c == ':'

/-- Reads the characters of a word. One blank may stand between a date and a time. -/
def wordChars (cs : List Char) : List Char × List Char :=
  let w := cs.takeWhile isWordChar
  let rest := cs.drop w.length
  match rest with
  | ' ' :: c :: more =>
    if w.length = 10 && c.isDigit && (Date.read? w).isSome then
      let time := (c :: more).takeWhile isWordChar
      (w ++ ' ' :: time, (c :: more).drop time.length)
    else (w, rest)
  | _ => (w, rest)

/-- The value that a word writes. A date or a time is a text in its written form. -/
def wordValue? (w : List Char) : Option Setting :=
  if w = "true".toList then some (.flag true)
  else if w = "false".toList then some (.flag false)
  else
    match integer? w with
    | some n => some (.integer n)
    | none =>
      match double? w with
      | some d => some (.double d)
      | none => (Moment.read? w).map fun m => .text m.text

/-- How many lists and tables in braces may be in one another. -/
def depthLimit : Nat := 80

mutual

/-- Reads a value, in which lists and tables in braces may be `depth` deep. No character takes more than
two steps, so `fuel` need not exceed twice their number. -/
def value : Nat → Nat → List Char → Reading Node
  | 0, _, _ => none
  | fuel + 1, depth, cs =>
    match cs, depth with
    | '"' :: _, _ | '\'' :: _, _ => (quoted fuel cs).map fun (s, rest) => (.single (.text s), rest)
    | '[' :: rest, depth + 1 => (listRest fuel depth rest).map fun rest => (.list, rest)
    | '\x7b' :: rest, depth + 1 =>
      (bracesRest fuel depth [] rest).map fun (entries, rest) => (.table .inline entries, rest)
    | cs, _ =>
      let (w, rest) := wordChars cs
      (wordValue? w).map fun s => (.single s, rest)

/-- Reads a list behind its bracket or a comma. -/
def listRest : Nat → Nat → List Char → Option (List Char)
  | 0, _, _ => none
  | fuel + 1, depth, cs =>
    match dropLines fuel cs with
    | ']' :: rest => some rest
    | cs =>
      match value fuel depth cs with
      | none => none
      | some (_, rest) =>
        match dropLines fuel rest with
        | ',' :: rest => listRest fuel depth rest
        | ']' :: rest => some rest
        | _ => none

/-- Reads a table in braces behind its brace or a comma, onto what it holds so far. -/
def bracesRest : Nat → Nat → Entries → List Char → Reading Entries
  | 0, _, _, _ => none
  | fuel + 1, depth, entries, cs =>
    match dropLines fuel cs with
    | '\x7d' :: rest => some (entries, rest)
    | cs =>
      match key fuel cs with
      | none => none
      | some (k, rest) =>
        match dropLines fuel rest with
        | '=' :: rest =>
          match value fuel depth (dropLines fuel rest) with
          | none => none
          | some (node, rest) =>
            match entries.add? true .inline k node with
            | none => none
            | some entries =>
              match dropLines fuel rest with
              | ',' :: rest => bracesRest fuel depth entries rest
              | '\x7d' :: rest => some (entries, rest)
              | _ => none
        | _ => none

end

/-- Reads the header of a table. -/
def readHeader (fuel : Nat) (cs : List Char) : Reading Header :=
  match cs with
  | '[' :: '[' :: rest =>
    match key fuel rest with
    | some (k, ']' :: ']' :: rest) => some (⟨true, k⟩, rest)
    | _ => none
  | '[' :: rest =>
    match key fuel rest with
    | some (k, ']' :: rest) => some (⟨false, k⟩, rest)
    | _ => none
  | _ => none

/-- Reads a key with its value. -/
def assignment (fuel : Nat) (cs : List Char) : Reading (List String × Node) :=
  match key fuel cs with
  | some (k, '=' :: rest) =>
    (value fuel depthLimit (dropSpace rest)).map fun (node, rest) => ((k, node), rest)
  | _ => none

/-- Reads the lines of a file. None takes more than two steps for each of its characters, so `fuel` need
not exceed twice their number. -/
def linesFrom : Nat → Draft → List Char → Option Draft
  | 0, _, _ => none
  | fuel + 1, draft, cs =>
    match dropLines fuel cs with
    | [] => some draft
    | '[' :: rest =>
      match readHeader fuel ('[' :: rest) with
      | none => none
      | some (header, rest) =>
        match lineEnd? rest, draft.start? header with
        | some rest, some draft => linesFrom fuel draft rest
        | _, _ => none
    | cs =>
      match assignment fuel cs with
      | none => none
      | some ((k, node), rest) =>
        match lineEnd? rest, draft.add? k node with
        | some rest, some draft => linesFrom fuel draft rest
        | _, _ => none

/-- A text without the mark of its byte order at the front. -/
def dropOrderMark (cs : List Char) : List Char :=
  if cs.head? = some '\uFEFF' then cs.drop 1 else cs

/-- Reads a file. -/
def parse (s : String) : Option Entries :=
  (linesFrom (2 * s.length + 2) {} (dropOrderMark s.toList)).bind Draft.close?

end GitRemote.Config.Toml
