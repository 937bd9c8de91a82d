import GitRemote.Text.Utf8

/-!
# Numbers in text

Decimal numbers as options, headers and lengths give them: an optional sign, then at least one ASCII
digit, and a value within the range of its field.
-/

namespace GitRemote.Text

/-- The value of a digit of the given base, which is at most ten. -/
def digitValue? (base : Nat) (b : UInt8) : Option Nat :=
  if 0x30 ≤ b ∧ b.toNat < 0x30 + base then some (b.toNat - 0x30) else none

/-- Reads digits onto the value of those before them. -/
def digitsOnto? (base : Nat) (value : Nat) : Bytes → Option Nat
  | [] => some value
  | b :: rest =>
    match digitValue? base b with
    | some d => digitsOnto? base (value * base + d) rest
    | none => none

/-- The number that a non-empty sequence of digits writes. -/
def digits? (base : Nat) (b : Bytes) : Option Nat :=
  if b.isEmpty then none else digitsOnto? base 0 b

/-- The bytes of a number's digits, without leading zeros. -/
def digitBytes (base n : Nat) : Bytes :=
  (Nat.toDigits base n).map fun c => UInt8.ofNat c.toNat

/-- A decimal number of at least zero and less than `bound`; a plus sign may stand before it. -/
def natural? (bound : Nat) (s : String) : Option Nat :=
  let b := Utf8.encode s
  let unsigned := if b.head? == some 0x2B then b.drop 1 else b
  match digits? 10 unsigned with
  | some n => if n < bound then some n else none
  | none => none

/-- A decimal number from `-bound` to `bound - 1`; either sign may stand before it. -/
def integer? (bound : Nat) (s : String) : Option Int :=
  let b := Utf8.encode s
  if b.head? == some 0x2D then
    match digits? 10 (b.drop 1) with
    | some n => if n ≤ bound then some (-(n : Int)) else none
    | none => none
  else (natural? bound s).map Int.ofNat

/-- Two to the power 64, the bound of lengths and depths. -/
def wordBound : Nat := 18446744073709551616

end GitRemote.Text
