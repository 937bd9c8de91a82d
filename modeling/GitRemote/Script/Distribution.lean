import GitRemote.Script.Filter

/-!
# Arguments from the input

The words that a script reads off its input and hands to commands as arguments: how `xargs` tells them
apart, and the commands that it makes of them.

Like all of `Script` it only serves to run commands: no result is about it, and none needs it.
-/

namespace GitRemote.Script

/-- Arguments as they are read off some input: the word begun, and the quote that is open. -/
structure ArgumentReading where
  done : List Bytes := []
  begun : Option Bytes := none
  quote : Option UInt8 := none
  escaped : Bool := false

namespace ArgumentReading

/-- Adds a byte to the word begun. -/
def add (r : ArgumentReading) (b : UInt8) : ArgumentReading :=
  { r with begun := some (r.begun.getD [] ++ [b]), escaped := false }

/-- Reads a byte. -/
def step (r : ArgumentReading) (b : UInt8) : ArgumentReading :=
  if r.escaped then r.add b
  else if r.quote = some b then { r with quote := none }
  else if r.quote.isSome then r.add b
  else if b = 0x5C then { r with escaped := true }
  else if b = 0x22 || b = 0x27 then { r with quote := some b, begun := some (r.begun.getD []) }
  else if isSpaceByte b then { done := r.done ++ r.begun.toList }
  else r.add b

end ArgumentReading

/-- The words of some input for a command that takes them as arguments. -/
def inputWords (b : Bytes) : List Bytes :=
  let r := b.foldl ArgumentReading.step {}
  r.done ++ r.begun.toList

/-- Groups of a size. -/
def groupsOf (n : Nat) : Nat → List Bytes → List (List Bytes)
  | 0, _ => []
  | _ + 1, [] => []
  | fuel + 1, ws => ws.take n :: groupsOf n fuel (ws.drop n)

/-- How a command is run with words of the input. -/
structure Distribution where
  size : Option Nat := none
  /-- It does not run without words. -/
  onlyIfAny : Bool := false
  /-- What each line of the input takes the place of. -/
  placeholder : Option Bytes := none
  command : List Bytes := []

namespace Distribution

/-- Reads the arguments of `xargs`. -/
def read : Nat → Distribution → List Bytes → Distribution
  | 0, d, _ => d
  | _ + 1, d, [] => d
  | fuel + 1, d, a :: args =>
    match Utf8.charsLossy a with
    | ['-', 'n'] => read fuel { d with size := Text.digits? 10 (args.headD []) } args.tail
    | '-' :: 'n' :: _ => read fuel { d with size := Text.digits? 10 (a.drop 2) } args
    | ['-', 'r'] => read fuel { d with onlyIfAny := true } args
    | ['-', 'I'] => read fuel { d with placeholder := args.head? } args.tail
    | '-' :: 'I' :: _ => read fuel { d with placeholder := some (a.drop 2) } args
    | '-' :: _ => read fuel d args
    | _ => { d with command := a :: args }

/-- A text with all occurrences of another exchanged. -/
def exchangeAll (old new : Bytes) : Nat → Bytes → Bytes
  | 0, b => b
  | _ + 1, [] => []
  | fuel + 1, x :: b =>
    if !old.isEmpty && old.isPrefixOf (x :: b) then
      new ++ exchangeAll old new fuel ((x :: b).drop old.length)
    else x :: exchangeAll old new fuel b

/-- The commands to run on some input. -/
def commands (d : Distribution) (b : Bytes) : List (List Bytes) :=
  let command :=
    match d.command with
    | [] => [bytesOf "/bin/echo"]
    | c :: args => (if c == bytesOf "echo" then bytesOf "/bin/echo" else c) :: args
  match d.placeholder with
  | some mark =>
    (linesOf b).filterMap fun l =>
      if l.isEmpty then none else some (command.map fun a => exchangeAll mark l (a.length + 1) a)
  | none =>
    let words := inputWords b
    if words.isEmpty then (if d.onlyIfAny then [] else [command])
    else (groupsOf (d.size.getD words.length) words.length words).map (command ++ ·)

end Distribution

end GitRemote.Script
