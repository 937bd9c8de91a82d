import GitRemote.Script.Arithmetic
import GitRemote.Text.Number

/-!
# Printed text of shell scripts

What `echo` and `printf` print: escapes, and the directives of a format with their flags, widths and
precisions. Arguments and output are bytes.

Like all of `Script` it only serves to run commands: no result is about it, and none needs it.
-/

namespace GitRemote.Script

/-- Reads up to `n` octal digits onto a value. -/
def octalDigits : Nat → Nat → Bytes → Nat × Bytes
  | 0, v, bs => (v, bs)
  | _ + 1, v, [] => (v, [])
  | n + 1, v, b :: bs =>
    match Text.digitValue? 8 b with
    | some d => octalDigits n (v * 8 + d) bs
    | none => (v, b :: bs)

/-- The byte of a one-letter escape. -/
def letterEscape? (b : UInt8) : Option UInt8 :=
  [(0x6E, 0x0A), (0x74, 0x09), (0x72, 0x0D), (0x61, 0x07), (0x62, 0x08), (0x66, 0x0C),
    (0x76, 0x0B), (0x5C, 0x5C), (0x65, 0x1B)].lookup b

/-- A text with its escapes replaced; an octal escape may have a zero before its digits. The second
component tells whether an escape ended the output. -/
def unescape : Nat → Bytes → Bytes × Bool
  | 0, bs => (bs, false)
  | _ + 1, [] => ([], false)
  | fuel + 1, 0x5C :: b :: bs =>
    let onward (out rest : Bytes) : Bytes × Bool :=
      let (more, ended) := unescape fuel rest
      (out ++ more, ended)
    if b = 0x63 then ([], true)
    else
      match letterEscape? b with
      | some x => onward [x] bs
      | none =>
        if (Text.digitValue? 8 b).isSome then
          let (v, rest) := octalDigits 3 0 (if b = 0x30 then bs else b :: bs)
          onward [UInt8.ofNat v] rest
        else onward [0x5C, b] bs
  | fuel + 1, b :: bs =>
    let (out, ended) := unescape fuel bs
    (b :: out, ended)

/-- Arguments with blanks between them. -/
def joinArgs (args : List Bytes) : Bytes := ([0x20] : Bytes).intercalate args

/-- What `echo` prints. -/
def echo (args : List Bytes) : Bytes :=
  let (line, args) := if args.head? == some (bytesOf "-n") then ([], args.drop 1) else ([0x0A], args)
  let text := joinArgs args
  let (out, ended) := unescape (text.length + 1) text
  if ended then out else out ++ line

/-- The integer that an argument writes, and whether it writes one. A quote stands before a
character whose number is meant. -/
def integer (b : Bytes) : Int × Bool :=
  match b with
  | 0x27 :: c :: _ => ((c.toNat : Int), true)
  | 0x22 :: c :: _ => ((c.toNat : Int), true)
  | _ =>
    let cs := Utf8.charsLossy b
    match valueNumber? cs with
    | some n => (n, true)
    | none =>
      let body := (cs.dropWhile Char.isWhitespace)
      let (negative, body) :=
        match body with
        | '-' :: r => (true, r)
        | '+' :: r => (false, r)
        | r => (false, r)
      let n : Int := ((Text.numberIn? 10 (body.takeWhile Char.isDigit)).getD 0 : Nat)
      (if negative then -n else n, false)

/-- A directive of a format. -/
structure Directive where
  left : Bool := false
  zeros : Bool := false
  plus : Bool := false
  blank : Bool := false
  alternate : Bool := false
  width : Nat := 0
  precision : Option Nat := none
  /-- The letter that tells what is printed. -/
  letter : UInt8 := 0

namespace Directive

/-- Reads the flags. -/
def flags (d : Directive) : Bytes → Directive × Bytes
  | 0x2D :: bs => flags { d with left := true } bs
  | 0x30 :: bs => flags { d with zeros := true } bs
  | 0x2B :: bs => flags { d with plus := true } bs
  | 0x20 :: bs => flags { d with blank := true } bs
  | 0x23 :: bs => flags { d with alternate := true } bs
  | bs => (d, bs)

/-- Reads a number, or takes it from the arguments where a star stands for it. -/
def count (bs : Bytes) (args : List Bytes) : Nat × Bytes × List Bytes :=
  match bs with
  | 0x2A :: bs => ((integer (args.headD [])).1.toNat, bs, args.tail)
  | bs =>
    let digits := bs.takeWhile fun b => (Text.digitValue? 10 b).isSome
    ((Text.digits? 10 digits).getD 0, bs.drop digits.length, args)

/-- Reads a directive behind its percent sign. -/
def read (bs : Bytes) (args : List Bytes) : Option (Directive × Bytes × List Bytes) :=
  let (d, bs) := flags {} bs
  let (width, bs, args) := count bs args
  let (precision, bs, args) : Option Nat × Bytes × List Bytes :=
    match bs with
    | 0x2E :: bs =>
      let (n, bs, args) := count bs args
      (some n, bs, args)
    | bs => (none, bs, args)
  match bs with
  | [] => none
  | letter :: bs => some ({ d with width, precision, letter }, bs, args)

/-- A text within the width of a directive. -/
def pad (d : Directive) (b : Bytes) : Bytes :=
  let blanks := List.replicate (d.width - b.length) 0x20
  if d.left then b ++ blanks else blanks ++ b

/-- Digits behind a sign, with zeros between them up to the precision or the width. -/
def digits (d : Directive) (sign digits : Bytes) : Bytes :=
  let room :=
    match d.precision with
    | some n => n
    | none => if d.zeros && !d.left then d.width - sign.length else 0
  d.pad (sign ++ List.replicate (room - digits.length) 0x30 ++ digits)

/-- What a directive prints for an argument, if its letter is known, and whether the argument fits. -/
def print (d : Directive) (arg : Bytes) : Option (Bytes × Bool) :=
  let (n, fits) := if arg.isEmpty then (0, true) else integer arg
  let signed :=
    let sign : Bytes := if n < 0 then [0x2D] else if d.plus then [0x2B] else if d.blank then [0x20] else []
    d.digits sign (Text.digitBytes 10 n.natAbs)
  let word := (n % 18446744073709551616).toNat
  let based (base : Nat) (lead : Bytes) : Bytes :=
    d.digits (if d.alternate && word != 0 then lead else []) (Text.digitBytes base word)
  let upper (b : Bytes) : Bytes := b.map fun x => if 0x61 ≤ x ∧ x ≤ 0x7A then x - 0x20 else x
  if d.letter = 0x64 || d.letter = 0x69 then some (signed, fits)
  else if d.letter = 0x75 then some (d.digits [] (Text.digitBytes 10 word), fits)
  else if d.letter = 0x6F then some (based 8 [0x30], fits)
  else if d.letter = 0x78 then some (based 16 [0x30, 0x78], fits)
  else if d.letter = 0x58 then some (upper (based 16 [0x30, 0x78]), fits)
  else if d.letter = 0x63 then some (d.pad (arg.take 1), true)
  else if d.letter = 0x73 then some (d.pad (arg.take (d.precision.getD arg.length)), true)
  else none

end Directive

/-- What comes of printing by a format. -/
structure Printed where
  text : Bytes := []
  /-- The arguments that are left. -/
  rest : List Bytes := []
  /-- An escape ended the output. -/
  ended : Bool := false
  /-- The letter of a directive that is not known. -/
  unknown : Option UInt8 := none
  status : Nat := 0

/-- Prints something before the rest. -/
def Printed.after (p : Printed) (b : Bytes) : Printed := { p with text := b ++ p.text }

/-- One pass over a format. -/
def formatOnce : Nat → Bytes → List Bytes → Printed
  | 0, _, args => { rest := args }
  | _ + 1, [], args => { rest := args }
  | fuel + 1, 0x25 :: 0x25 :: fs, args => (formatOnce fuel fs args).after [0x25]
  | fuel + 1, 0x25 :: fs, args =>
    match Directive.read fs args with
    | none => { rest := args, ended := true, status := 2 }
    | some (d, fs, args) =>
      let arg := args.headD []
      if d.letter = 0x62 then
        let (out, ended) := unescape (arg.length + 1) arg
        if ended then { text := out, rest := [], ended := true }
        else (formatOnce fuel fs args.tail).after (d.pad out)
      else
        match d.print arg with
        | none => { rest := args, ended := true, unknown := some d.letter, status := 2 }
        | some (out, fits) =>
          let p := (formatOnce fuel fs args.tail).after out
          if fits then p else { p with status := max p.status 1 }
  | fuel + 1, 0x5C :: c :: fs, args =>
    match letterEscape? c with
    | some x => (formatOnce fuel fs args).after [x]
    | none =>
      if (Text.digitValue? 8 c).isSome then
        let (v, fs) := octalDigits 3 0 (c :: fs)
        (formatOnce fuel fs args).after [UInt8.ofNat v]
      else (formatOnce fuel fs args).after [0x5C, c]
  | fuel + 1, c :: fs, args => (formatOnce fuel fs args).after [c]

/-- What `printf` prints: the format is used again while it takes arguments and some are left. -/
def format (fs : Bytes) : Nat → List Bytes → Printed
  | 0, args => formatOnce (fs.length + 1) fs args
  | fuel + 1, args =>
    let p := formatOnce (fs.length + 1) fs args
    if p.ended || p.rest.isEmpty || p.rest.length == args.length then p
    else
      let more := format fs fuel p.rest
      { more with text := p.text ++ more.text, status := max p.status more.status }

end GitRemote.Script
