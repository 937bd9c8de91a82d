import GitRemote.Process.Program
import GitRemote.Script.Arithmetic

/-!
# Conditions of shell scripts

What `test` finds out about texts, integers and files. A condition that is not well formed has a fault
in place of a truth value.

Like all of `Script` it only serves to run commands: no result is about it, and none needs it.
-/

namespace GitRemote.Script

/-- Why a condition has no truth value. -/
inductive ConditionFault where
  | unexpected (word : Bytes)
  | noNumber (word : Bytes)
  | missing
  deriving DecidableEq, Repr

/-- What a fault is reported as. -/
def ConditionFault.message : ConditionFault → String
  | unexpected word => Utf8.decodeLossy word ++ ": unexpected operator"
  | noNumber word => "Illegal number: " ++ Utf8.decodeLossy word
  | missing => "argument expected"

/-- Whether a test of one operand holds, if there is such a test. -/
def unaryTest? (fs : Files) (path : Bytes → String) (op arg : Bytes) : Option Bool :=
  let file := fs.find? (path arg)
  let directory := fs.hasDirectory (path arg)
  match Utf8.decodeLossy op with
  | "-n" => some !arg.isEmpty
  | "-z" => some arg.isEmpty
  | "-e" | "-r" | "-w" => some (file.isSome || directory)
  | "-f" => some file.isSome
  | "-x" => some (directory || file.any (bytesOf "#!").isPrefixOf)
  | "-s" => some (directory || file.any (!·.isEmpty))
  | "-d" => some directory
  | "-t" | "-h" | "-L" | "-p" | "-S" | "-b" | "-c" | "-g" | "-u" | "-k" => some false
  | _ => none

/-- The integer of an operand. -/
def operand (b : Bytes) : Except ConditionFault Int :=
  match if b.isEmpty then none else valueNumber? (Utf8.charsLossy b) with
  | some n => .ok n
  | none => .error (.noNumber b)

/-- Whether a test of two operands holds, if there is such a test. -/
def binaryTest? (a op b : Bytes) : Option (Except ConditionFault Bool) :=
  let compare (holds : Int → Int → Bool) : Option (Except ConditionFault Bool) :=
    some <| do
      let m ← operand a
      let n ← operand b
      pure (holds m n)
  match Utf8.decodeLossy op with
  | "=" => some (.ok (a == b))
  | "!=" => some (.ok (a != b))
  | "<" => some (.ok (decide (a < b)))
  | ">" => some (.ok (decide (b < a)))
  | "-eq" => compare (· == ·)
  | "-ne" => compare (· != ·)
  | "-lt" => compare (decide <| · < ·)
  | "-le" => compare (decide <| · ≤ ·)
  | "-gt" => compare (decide <| · > ·)
  | "-ge" => compare (decide <| · ≥ ·)
  | _ => none

/-- A reader of the front of a condition: its truth value, and what is left. -/
abbrev ConditionReader := List Bytes → Except ConditionFault (Bool × List Bytes)

mutual

/-- Alternatives. -/
def anyOf (fs : Files) (path : Bytes → String) : Nat → ConditionReader
  | 0, _ => .error .missing
  | fuel + 1, args =>
    match allOf fs path fuel args with
    | .error e => .error e
    | .ok (a, rest) =>
      match rest with
      | op :: rest =>
        if op == bytesOf "-o" then (anyOf fs path fuel rest).map fun (b, r) => (a || b, r)
        else .ok (a, op :: rest)
      | [] => .ok (a, [])

/-- Tests that all must hold. -/
def allOf (fs : Files) (path : Bytes → String) : Nat → ConditionReader
  | 0, _ => .error .missing
  | fuel + 1, args =>
    match single fs path fuel args with
    | .error e => .error e
    | .ok (a, rest) =>
      match rest with
      | op :: rest =>
        if op == bytesOf "-a" then (allOf fs path fuel rest).map fun (b, r) => (a && b, r)
        else .ok (a, op :: rest)
      | [] => .ok (a, [])

/-- One test, a negated one or one in brackets. -/
def single (fs : Files) (path : Bytes → String) : Nat → ConditionReader
  | 0, _ => .error .missing
  | _ + 1, [] => .error .missing
  | _ + 1, [a] => .ok (!a.isEmpty, [])
  | fuel + 1, a :: b :: rest =>
    match (rest.head?.bind (binaryTest? a b ·)) with
    | some r => r.map fun r => (r, rest.tail)
    | none =>
      if a == bytesOf "!" then (single fs path fuel (b :: rest)).map fun (r, rest) => (!r, rest)
      else if a == bytesOf "(" then
        match anyOf fs path fuel (b :: rest) with
        | .error e => .error e
        | .ok (r, close :: rest) =>
          if close == bytesOf ")" then .ok (r, rest) else .error (.unexpected close)
        | .ok (_, []) => .error .missing
      else
        match unaryTest? fs path a b with
        | some r => .ok (r, rest)
        | none => .ok (!a.isEmpty, b :: rest)

end

/-- Whether a condition holds; an empty one does not. -/
def condition (fs : Files) (path : Bytes → String) (args : List Bytes) : Except ConditionFault Bool :=
  if args.isEmpty then .ok false
  else
    match anyOf fs path (4 * args.length + 4) args with
    | .error e => .error e
    | .ok (r, []) => .ok r
    | .ok (_, _ :: _) => .error (.unexpected (args.headD []))

end GitRemote.Script
