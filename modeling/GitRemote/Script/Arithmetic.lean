import GitRemote.Script.Term
import GitRemote.Text.Hex

/-!
# Arithmetic of shell scripts

Expressions over 64-bit integers: numbers, names, the operators of C without counting up and down,
and assignments. `Expression.read` reads one from text, `Expression.evaluate` gives its value and the
names it set. A name stands for the number that its value writes, and for zero without a value.

Like all of `Script` it only serves to run commands: no result is about it, and none needs it.
-/

namespace GitRemote.Script

/-- An operator between two operands. -/
inductive Binary where
  | or | and | bitOr | bitXor | bitAnd | equal | notEqual | less | lessEqual | greater | greaterEqual
  | shiftLeft | shiftRight | plus | minus | times | quotient | modulo
  deriving DecidableEq, Repr

/-- An operator before its operand. -/
inductive Unary where
  | not | complement | negative | positive
  deriving DecidableEq, Repr

/-- An arithmetic expression. -/
inductive Expression where
  | number (n : Int)
  | name (x : String)
  | unary (op : Unary) (a : Expression)
  | binary (op : Binary) (a b : Expression)
  | choice (condition a b : Expression)
  /-- Sets a name, to the result of an operator on its value if one is given. -/
  | assign (x : String) (op : Option Binary) (a : Expression)

/-- Why an expression has no value. -/
inductive ArithmeticError where
  | malformed
  | divisionByZero
  /-- The value of a name is no number. -/
  | noNumber (value : String)
  deriving DecidableEq, Repr

/-- What comes of reading or evaluating. -/
abbrev Arithmetic (α : Type) := Except ArithmeticError α

/-- An integer as 64 bits hold it. -/
def wrap (n : Int) : Int := Int.bmod n 18446744073709551616

namespace Binary

/-- The operators with how closely they bind and how they are written. Of two that start alike the
longer is first. -/
def table : List (Nat × Binary × List Char) :=
  [(1, or, ['|', '|']), (2, and, ['&', '&']), (6, equal, ['=', '=']), (6, notEqual, ['!', '=']),
    (8, shiftLeft, ['<', '<']), (8, shiftRight, ['>', '>']), (7, lessEqual, ['<', '=']),
    (7, greaterEqual, ['>', '=']), (7, less, ['<']), (7, greater, ['>']), (3, bitOr, ['|']),
    (4, bitXor, ['^']), (5, bitAnd, ['&']), (9, plus, ['+']), (9, minus, ['-']), (10, times, ['*']),
    (10, quotient, ['/']), (10, modulo, ['%'])]

/-- One where a condition holds, and zero elsewhere. -/
def truth (b : Bool) : Int := if b then 1 else 0

/-- An integer as the number that its 64 bits write. -/
def bits (n : Int) : Nat := (n % 18446744073709551616).toNat

/-- The result of an operator. -/
def apply (a b : Int) : Binary → Arithmetic Int
  | or => .ok (truth (a != 0 || b != 0))
  | and => .ok (truth (a != 0 && b != 0))
  | bitOr => .ok (wrap (bits a ||| bits b : Nat))
  | bitXor => .ok (wrap (bits a ^^^ bits b : Nat))
  | bitAnd => .ok (wrap (bits a &&& bits b : Nat))
  | equal => .ok (truth (a == b))
  | notEqual => .ok (truth (a != b))
  | less => .ok (truth (a < b))
  | lessEqual => .ok (truth (a ≤ b))
  | greater => .ok (truth (b < a))
  | greaterEqual => .ok (truth (b ≤ a))
  | shiftLeft => .ok (wrap (bits a <<< (bits b % 64) : Nat))
  | shiftRight => .ok (a >>> (bits b % 64))
  | plus => .ok (wrap (a + b))
  | minus => .ok (wrap (a - b))
  | times => .ok (wrap (a * b))
  | quotient => if b = 0 then .error .divisionByZero else .ok (wrap (a.tdiv b))
  | modulo => if b = 0 then .error .divisionByZero else .ok (a.tmod b)

end Binary

/-- The result of an operator before its operand. -/
def Unary.apply (a : Int) : Unary → Int
  | not => Binary.truth (a == 0)
  | complement => -a - 1
  | negative => wrap (-a)
  | positive => a

/-- The number that digits write: hexadecimal behind `0x`, octal behind another zero. -/
def literalNumber? : List Char → Option Int
  | [] => none
  | '0' :: 'x' :: cs => if cs.isEmpty then none else (Text.numberIn? 16 cs).map Int.ofNat
  | '0' :: 'X' :: cs => if cs.isEmpty then none else (Text.numberIn? 16 cs).map Int.ofNat
  | '0' :: cs => (Text.numberIn? 8 cs).map Int.ofNat
  | cs => (Text.numberIn? 10 cs).map Int.ofNat

/-- The number that a value writes, with blanks around it and a sign. -/
def valueNumber? (cs : List Char) : Option Int :=
  let cs := (cs.dropWhile Char.isWhitespace).reverse.dropWhile Char.isWhitespace |>.reverse
  match cs with
  | [] => some 0
  | '-' :: cs => (literalNumber? cs).map (- ·)
  | '+' :: cs => literalNumber? cs
  | cs => literalNumber? cs

namespace Expression

/-- A reader of the front of a text. -/
abbrev Front (α : Type) := List Char → Option (α × List Char)

/-- Drops blanks. -/
def skip (cs : List Char) : List Char := cs.dropWhile Char.isWhitespace

/-- What follows some characters at the front of a text. -/
def follow? : List Char → List Char → Option (List Char)
  | [], cs => some cs
  | _ :: _, [] => none
  | c :: lead, c' :: cs => if c == c' then follow? lead cs else none

/-- The operator of an assignment behind a name. -/
def assignment? (cs : List Char) : Option (Option Binary × List Char) :=
  match skip cs with
  | '=' :: '=' :: _ => none
  | '=' :: cs => some (none, cs)
  | cs =>
    ([.times, .quotient, .modulo, .plus, .minus, .shiftLeft, .shiftRight, .bitAnd, .bitXor, .bitOr] :
        List Binary).findSome? fun op =>
      (Binary.table.find? (·.2.1 == op)).bind fun (_, _, sign) =>
        (follow? (sign ++ ['=']) cs).map fun cs => (some op, cs)

mutual

/-- An expression with assignments and choices. -/
def whole : Nat → Front Expression
  | 0, _ => none
  | fuel + 1, cs =>
    let cs := skip cs
    let x := cs.takeWhile isNameChar
    let assigned :=
      if x.head?.any (!·.isDigit) then
        (assignment? (cs.drop x.length)).bind fun (op, cs) =>
          (whole fuel cs).map fun (a, r) => (assign (String.ofList x) op a, r)
      else none
    match assigned with
    | some r => some r
    | none =>
      match operands fuel 1 cs with
      | none => none
      | some (c, cs) =>
        match skip cs with
        | '?' :: cs =>
          (whole fuel cs).bind fun (a, cs) =>
            match skip cs with
            | ':' :: cs => (whole fuel cs).map fun (b, r) => (choice c a b, r)
            | _ => none
        | cs => some (c, cs)

/-- Operands between which operators stand that bind at least so closely. -/
def operands : Nat → Nat → Front Expression
  | 0, _, _ => none
  | fuel + 1, level, cs => (operand fuel cs).bind fun (a, cs) => continued fuel level a cs

/-- What follows a first operand. -/
def continued : Nat → Nat → Expression → Front Expression
  | 0, _, _, _ => none
  | fuel + 1, level, a, cs =>
    let next := Binary.table.findSome? fun (l, op, sign) =>
      (follow? sign (skip cs)).map fun r => (l, op, r)
    match next with
    | some (l, op, rest) =>
      if l < level then some (a, cs)
      else (operands fuel (l + 1) rest).bind fun (b, cs) => continued fuel level (binary op a b) cs
    | none => some (a, cs)

/-- A number, a name, brackets, or an operator before an operand. -/
def operand : Nat → Front Expression
  | 0, _ => none
  | fuel + 1, cs =>
    match skip cs with
    | '(' :: cs =>
      (whole fuel cs).bind fun (a, cs) =>
        match skip cs with
        | ')' :: cs => some (a, cs)
        | _ => none
    | '!' :: cs => (operand fuel cs).map fun (a, r) => (unary .not a, r)
    | '~' :: cs => (operand fuel cs).map fun (a, r) => (unary .complement a, r)
    | '-' :: cs => (operand fuel cs).map fun (a, r) => (unary .negative a, r)
    | '+' :: cs => (operand fuel cs).map fun (a, r) => (unary .positive a, r)
    | cs =>
      let x := cs.takeWhile isNameChar
      let rest := cs.drop x.length
      if x.isEmpty then none
      else if x.head?.any Char.isDigit then (literalNumber? x).map fun n => (number (wrap n), rest)
      else some (name (String.ofList x), rest)

end

/-- Reads an expression; a blank text is zero. -/
def read (cs : List Char) : Option Expression :=
  if (skip cs).isEmpty then some (number 0)
  else
    match whole (16 * cs.length + 16) cs with
    | some (e, rest) => if (skip rest).isEmpty then some e else none
    | none => none

/-- The names that were set, the latest first. -/
abbrev Settings := List (String × Int)

/-- The number that a name stands for. -/
def lookup (given : String → List Char) (set : Settings) (x : String) : Arithmetic Int :=
  match set.lookup x with
  | some n => .ok n
  | none =>
    match valueNumber? (given x) with
    | some n => .ok (wrap n)
    | none => .error (.noNumber (String.ofList (given x)))

/-- The value of an expression, and the names set. -/
def evaluate (given : String → List Char) (set : Settings) : Expression → Arithmetic (Int × Settings)
  | number n => .ok (n, set)
  | name x => (lookup given set x).map fun n => (n, set)
  | unary op a => (evaluate given set a).map fun (n, set) => (op.apply n, set)
  | binary op a b =>
    match evaluate given set a with
    | .error e => .error e
    | .ok (m, set) =>
      if op = .or ∧ m ≠ 0 then .ok (1, set)
      else if op = .and ∧ m = 0 then .ok (0, set)
      else
        match evaluate given set b with
        | .error e => .error e
        | .ok (n, set) => (op.apply m n).map fun r => (r, set)
  | choice c a b =>
    match evaluate given set c with
    | .error e => .error e
    | .ok (m, set) => if m ≠ 0 then evaluate given set a else evaluate given set b
  | assign x op a =>
    match evaluate given set a with
    | .error e => .error e
    | .ok (n, set) =>
      match op with
      | none => .ok (n, (x, n) :: set)
      | some op =>
        match lookup given set x with
        | .error e => .error e
        | .ok m => (op.apply m n).map fun r => (r, (x, r) :: set)

end Expression

end GitRemote.Script
