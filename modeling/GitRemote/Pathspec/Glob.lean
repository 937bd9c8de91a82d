import GitRemote.Text.Utf8

/-!
# Globs

The glob dialect in which wildcards are matched. `Glob.compile?` reads a pattern as a list of tokens:
`?` is any character, a star any run of characters, two stars that fill a path component any run of
whole components, brackets a set of characters. `Glob.run` matches the tokens from left to right and
backtracks over stars; when the text ends under a token that needs a character, no way of matching
can succeed.
-/

namespace GitRemote

namespace Glob

/-- A member of a set of characters. -/
inductive Specifier where
  | single (c : Char)
  | range (first last : Char)
  deriving DecidableEq, Repr

/-- One token of a pattern. -/
inductive Token where
  | char (c : Char)
  | anyChar
  | anySequence
  | anyComponents
  | anyOf (set : List Specifier)
  | noneOf (set : List Specifier)
  deriving DecidableEq, Repr

/-- The members of a set: three characters of which the second is a dash are a range. -/
def specifiers : List Char → List Specifier
  | a :: '-' :: b :: rest => .range a b :: specifiers rest
  | c :: rest => .single c :: specifiers rest
  | [] => []

/-- The number of stars at the front. -/
def starRun : List Char → Nat
  | '*' :: rest => starRun rest + 1
  | _ => 0

/-- Splits after at least `least` characters, before the first closing bracket. -/
def untilBracket (least : Nat) (cs : List Char) : Option (List Char × List Char) :=
  match (cs.drop least).idxOf? ']' with
  | some n => some (cs.take (least + n), cs.drop (least + n + 1))
  | none => none

/-- Reads a set behind its opening bracket. A closing bracket right at the start, or right behind
the exclamation mark that negates, is a member. -/
def bracket? (cs : List Char) : Option (Token × List Char) :=
  match cs with
  | '!' :: rest =>
    if 3 ≤ cs.length then
      (untilBracket 1 rest).map fun (set, rest) => (.noneOf (specifiers set), rest)
    else none
  | _ =>
    if 2 ≤ cs.length then
      (untilBracket 1 cs).map fun (set, rest) => (.anyOf (specifiers set), rest)
    else none

/-- Appends the token of two stars. Right behind another such token it adds nothing. -/
def pushComponents (tokens : List Token) : List Token :=
  if 2 ≤ tokens.length && tokens.getLast? == some .anyComponents then tokens
  else tokens ++ [.anyComponents]

/-- Reads the rest of a pattern; `before` is the character in front of it. Each step takes at least
one character, so `fuel` need not exceed their number. -/
def tokens? : Nat → Option Char → List Token → List Char → Option (List Token)
  | _, _, done, [] => some done
  | 0, _, _, _ => none
  | fuel + 1, _, done, '?' :: rest => tokens? fuel (some '?') (done ++ [.anyChar]) rest
  | fuel + 1, before, done, '*' :: rest =>
    match starRun rest with
    | 0 => tokens? fuel (some '*') (done ++ [.anySequence]) rest
    | 1 =>
      if before.all (· == '/') then
        match rest.drop 1 with
        | [] => some (pushComponents done)
        | '/' :: rest => tokens? fuel (some '/') (pushComponents done) rest
        | _ => none
      else none
    | _ => none
  | fuel + 1, _, done, '[' :: rest =>
    match bracket? rest with
    | some (t, rest) => tokens? fuel (some ']') (done ++ [t]) rest
    | none => none
  | fuel + 1, _, done, c :: rest => tokens? fuel (some c) (done ++ [.char c]) rest

/-- The tokens of a pattern, if it is well formed. -/
def compile? (pattern : List Char) : Option (List Token) :=
  tokens? pattern.length none [] pattern

/-- How characters are compared. -/
structure Options where
  /-- ASCII letters match in either case. -/
  icase : Bool
  /-- A slash is matched by itself only. -/
  separate : Bool
  deriving DecidableEq, Repr

/-- Whether two characters match. -/
def sameChar (o : Options) (a b : Char) : Bool :=
  a == b || (o.icase && a.toNat < 128 && b.toNat < 128 && a.toLower == b.toLower)

/-- Whether a character is within a member of a set. -/
def Specifier.covers (o : Options) (c : Char) : Specifier → Bool
  | .single s => sameChar o c s
  | .range first last =>
    (o.icase && c.toNat < 128 && first.toNat < 128 && last.toNat < 128 &&
      first.toLower.isLower && last.toLower.isLower &&
      first.toLower ≤ c.toLower && c.toLower ≤ last.toLower) ||
    (first ≤ c && c ≤ last)

/-- Whether a token other than a star matches a character. -/
def Token.covers (o : Options) (c : Char) : Token → Bool
  | .char p => sameChar o c p
  | .anyChar => !(o.separate && c == '/')
  | .anyOf set => !(o.separate && c == '/') && set.any (·.covers o c)
  | .noneOf set => !(o.separate && c == '/') && !set.any (·.covers o c)
  | .anySequence => false
  | .anyComponents => false

/-- The outcome of one way of matching. -/
inductive Verdict where
  | matched
  /-- Another way may still succeed. -/
  | failed
  /-- No way can succeed. -/
  | hopeless
  deriving DecidableEq, Repr

/-- Tries the rest of a pattern, `next`, behind each run of characters at the front of the text. -/
def afterRun (o : Options) (next : List Char → Verdict) : List Char → Verdict
  | [] => next []
  | c :: rest =>
    match next (c :: rest) with
    | .failed => if o.separate && c == '/' then .failed else afterRun o next rest
    | v => v

/-- Tries the rest of a pattern behind each slash of the text, and at its end. -/
def afterSlash (next : List Char → Verdict) : List Char → Verdict
  | [] => next []
  | c :: rest =>
    if c == '/' then
      match next rest with
      | .failed => afterSlash next rest
      | v => v
    else afterSlash next rest

/-- Matches tokens against a text. -/
def run (o : Options) : List Token → List Char → Verdict
  | [], [] => .matched
  | [], _ :: _ => .failed
  | .anySequence :: tokens, text => afterRun o (run o tokens) text
  | .anyComponents :: tokens, text =>
    match run o tokens text with
    | .failed => afterSlash (run o tokens) text
    | v => v
  | _ :: _, [] => .hopeless
  | t :: tokens, c :: text => if t.covers o c then run o tokens text else .failed

end Glob

end GitRemote
