import GitRemote.Script.Pattern
import GitRemote.Text.Number

/-!
# Regular expressions of utilities

Basic and extended regular expressions over bytes, with groups and references back to them.
`Regex.read` reads one from text and `Regex.find?` gives its first match in a line, of which repeated
parts take as much as they can.

Like all of `Script` it only serves to run commands: no result is about it, and none needs it.
-/

namespace GitRemote.Script

/-- A regular expression. -/
inductive Regex where
  | empty
  | any
  | set (negated : Bool) (members : ByteSet)
  | lineStart
  | lineEnd
  | sequence (a b : Regex)
  | either (a b : Regex)
  /-- A part that stands at least `low` times, and at most `high` times if that is given. -/
  | repeated (a : Regex) (low : Nat) (high : Option Nat)
  | group (n : Nat) (a : Regex)
  /-- What a group matched, once more. -/
  | again (n : Nat)

namespace Regex

/-- A single byte. -/
def byte (b : UInt8) : Regex := set false [(b, b)]

/-- How many parts an expression has. -/
def size : Regex → Nat
  | sequence a b => a.size + b.size + 1
  | either a b => a.size + b.size + 1
  | repeated a low _ => a.size * (low + 1) + 1
  | group _ a => a.size + 1
  | _ => 1

/-- What is still to be done in a match. -/
inductive Task where
  | run (r : Regex)
  /-- A group began where this text was left. -/
  | close (n : Nat) (fromText : Bytes)
  /-- A part may be repeated, if it took something off this text. -/
  | more (a : Regex) (low : Nat) (high : Option Nat) (fromText : Bytes)

/-- What the groups matched. -/
abbrev Groups := List (Nat × Bytes)

/-- Does the tasks on a text at the end of a line in turn: the text that is left, and the groups. -/
def run (line : Bytes) : Nat → List Task → Bytes → Groups → Option (Bytes × Groups)
  | 0, _, _, _ => none
  | _ + 1, [], text, groups => some (text, groups)
  | fuel + 1, task :: tasks, text, groups =>
    match task with
    | .close n fromText =>
      run line fuel tasks text ((n, fromText.take (fromText.length - text.length)) :: groups)
    | .more a low high fromText =>
      if low = 0 ∧ fromText.length = text.length then run line fuel tasks text groups
      else run line fuel (.run (repeated a low high) :: tasks) text groups
    | .run r =>
      match r with
      | empty => run line fuel tasks text groups
      | any =>
        match text with
        | [] => none
        | _ :: text => run line fuel tasks text groups
      | set negated members =>
        match text with
        | [] => none
        | b :: text => if members.has b != negated then run line fuel tasks text groups else none
      | lineStart =>
        if text.length = line.length then run line fuel tasks text groups else none
      | lineEnd => if text.isEmpty then run line fuel tasks text groups else none
      | sequence a b => run line fuel (.run a :: .run b :: tasks) text groups
      | either a b =>
        match run line fuel (.run a :: tasks) text groups with
        | some r => some r
        | none => run line fuel (.run b :: tasks) text groups
      | repeated a low high =>
        if high = some 0 then run line fuel tasks text groups
        else
          match run line fuel (.run a :: .more a (low - 1) (high.map (· - 1)) text :: tasks) text
              groups with
          | some r => some r
          | none => if low = 0 then run line fuel tasks text groups else none
      | group n a => run line fuel (.run a :: .close n text :: tasks) text groups
      | again n =>
        let b := (groups.lookup n).getD []
        if b.isPrefixOf text then run line fuel tasks (text.drop b.length) groups else none

/-- A match in a line: what is before it, what it is, its groups, and what is behind it. -/
structure Match where
  before : Bytes
  text : Bytes
  groups : Groups
  behind : Bytes

/-- The first match in the part of a line behind `before`. -/
def findFrom (r : Regex) (line : Bytes) : Bytes → Bytes → Option Match
  | before, text =>
    match run line (8 * (r.size + 2) * (line.length + 2)) [.run r] text [] with
    | some (behind, groups) =>
      some ⟨before, text.take (text.length - behind.length), groups, behind⟩
    | none =>
      match text with
      | [] => none
      | b :: text => findFrom r line (before ++ [b]) text

/-- The first match in a line. -/
def find? (r : Regex) (line : Bytes) : Option Match := findFrom r line [] line

/-- A byte without its case. -/
def foldByte (b : UInt8) : UInt8 := if 0x41 ≤ b ∧ b ≤ 0x5A then b + 0x20 else b

/-- The expression that takes letters of either case. -/
def foldCase : Regex → Regex
  | set negated members =>
    set negated <| (List.range 256).filterMap fun i =>
      let b := UInt8.ofNat i
      if members.members.any fun m => foldByte m == foldByte b then some (b, b) else none
  | sequence a b => sequence a.foldCase b.foldCase
  | either a b => either a.foldCase b.foldCase
  | repeated a low high => repeated a.foldCase low high
  | group n a => group n a.foldCase
  | r => r

/-- Marks of an expression, once their spelling is settled. -/
inductive Token where
  | opening | closing | bar
  | times (low : Nat) (high : Option Nat)
  | atom (r : Regex)
  | caret | dollar

/-- The bounds of a repetition up to its closing brace. -/
def bounds? (text : Bytes) : Option (Nat × Option Nat) :=
  let low := text.takeWhile (· != 0x2C)
  match text.drop low.length with
  | [] => (Text.digits? 10 low).map fun n => (n, some n)
  | _ :: high =>
    let n := (Text.digits? 10 low).getD 0
    if high.isEmpty then some (n, none) else (Text.digits? 10 high).map fun m => (n, some m)

/-- A repetition by bounds behind its opening brace. -/
def bounded (extended : Bool) (text : Bytes) : Option (Token × Bytes) :=
  let inner := text.takeWhile fun b => b != 0x7D && b != 0x5C
  let rest := text.drop inner.length
  let rest := if extended then rest else rest.drop 1
  match rest with
  | 0x7D :: rest => (bounds? inner).map fun (low, high) => (.times low high, rest)
  | _ => none

/-- The token of a byte behind a backslash. -/
def escaped (extended : Bool) (b : UInt8) (rest : Bytes) : Option (Token × Bytes) :=
  let word : ByteSet := [(0x30, 0x39), (0x41, 0x5A), (0x5F, 0x5F), (0x61, 0x7A)]
  let space : ByteSet := [(0x09, 0x0D), (0x20, 0x20)]
  if b = 0x6E then some (.atom (byte 0x0A), rest)
  else if b = 0x74 then some (.atom (byte 0x09), rest)
  else if b = 0x77 then some (.atom (set false word), rest)
  else if b = 0x57 then some (.atom (set true word), rest)
  else if b = 0x73 then some (.atom (set false space), rest)
  else if b = 0x53 then some (.atom (set true space), rest)
  else if 0x31 ≤ b ∧ b ≤ 0x39 then some (.atom (again (b.toNat - 0x30)), rest)
  else if extended then some (.atom (byte b), rest)
  else if b = 0x28 then some (.opening, rest)
  else if b = 0x29 then some (.closing, rest)
  else if b = 0x7C then some (.bar, rest)
  else if b = 0x2B then some (.times 1 none, rest)
  else if b = 0x3F then some (.times 0 (some 1), rest)
  else if b = 0x7B then bounded false rest
  else some (.atom (byte b), rest)

/-- The next token of a text. -/
def token? (extended : Bool) : Bytes → Option (Token × Bytes)
  | [] => none
  | 0x5C :: b :: rest => escaped extended b rest
  | 0x5B :: rest =>
    (bracketSet? (rest.map fun b => (b, b == 0x21))).map fun ((negated, s), r) =>
      (.atom (set negated s), r.map (·.1))
  | 0x2E :: rest => some (.atom any, rest)
  | 0x2A :: rest => some (.times 0 none, rest)
  | 0x5E :: rest => some (.caret, rest)
  | 0x24 :: rest => some (.dollar, rest)
  | b :: rest =>
    if !extended then some (.atom (byte b), rest)
    else if b = 0x28 then some (.opening, rest)
    else if b = 0x29 then some (.closing, rest)
    else if b = 0x7C then some (.bar, rest)
    else if b = 0x2B then some (.times 1 none, rest)
    else if b = 0x3F then some (.times 0 (some 1), rest)
    else if b = 0x7B then
      match bounded true rest with
      | some t => some t
      | none => some (.atom (byte b), rest)
    else some (.atom (byte b), rest)

/-- The tokens of a text. -/
def tokens (extended : Bool) : Nat → Bytes → Option (List Token)
  | 0, _ => none
  | _ + 1, [] => some []
  | fuel + 1, text =>
    (token? extended text).bind fun (t, rest) => (tokens extended fuel rest).map (t :: ·)

/-- Repetitions behind a part. -/
def repeats (a : Regex) : List Token → Regex × List Token
  | .times low high :: ts => repeats (repeated a low high) ts
  | ts => (a, ts)

/-- Whether a dollar sign that these tokens follow is at an end. -/
def endsHere (extended : Bool) : List Token → Bool
  | [] => true
  | .closing :: _ => true
  | .bar :: _ => true
  | _ => extended

mutual

/-- Alternatives up to a closing bracket or the end, with the number of groups so far. -/
def alternatives (extended : Bool) : Nat → Nat → List Token → Option (Regex × Nat × List Token)
  | 0, _, _ => none
  | fuel + 1, n, ts =>
    (parts extended fuel true n ts).bind fun (a, n, ts) =>
      match ts with
      | .bar :: ts => (alternatives extended fuel n ts).map fun (b, r) => (either a b, r)
      | ts => some (a, n, ts)

/-- Parts in turn; `first` tells whether none came before. -/
def parts (extended : Bool) : Nat → Bool → Nat → List Token → Option (Regex × Nat × List Token)
  | 0, _, _, _ => none
  | _ + 1, _, n, [] => some (empty, n, [])
  | fuel + 1, first, n, t :: ts =>
    let onward (a : Regex) (n : Nat) (ts : List Token) : Option (Regex × Nat × List Token) :=
      let (a, ts) := repeats a ts
      (parts extended fuel false n ts).map fun (b, r) => (sequence a b, r)
    match t with
    | .closing => some (empty, n, t :: ts)
    | .bar => some (empty, n, t :: ts)
    | .atom a => onward a n ts
    | .times _ _ => onward (byte 0x2A) n ts
    | .caret =>
      if first || extended then
        (parts extended fuel true n ts).map fun (b, r) => (sequence lineStart b, r)
      else onward (byte 0x5E) n ts
    | .dollar => onward (if endsHere extended ts then lineEnd else byte 0x24) n ts
    | .opening =>
      (alternatives extended fuel (n + 1) ts).bind fun (a, m, ts) =>
        match ts with
        | .closing :: ts => onward (group (n + 1) a) m ts
        | _ => none

end

/-- Reads an expression. -/
def read (extended : Bool) (text : Bytes) : Option Regex :=
  (tokens extended (text.length + 1) text).bind fun ts =>
    match alternatives extended (4 * ts.length + 4) 0 ts with
    | some (r, _, []) => some r
    | _ => none

end Regex

end GitRemote.Script
