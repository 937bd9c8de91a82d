import GitRemote.Text.Utf8

/-!
# Hexadecimal digits

Writing uses lower case and reading accepts both cases. The digits below ten and eight serve for
decimal and octal too.
-/

namespace GitRemote.Text

/-- The digit for a number below sixteen. -/
def hexDigit (n : UInt8) : UInt8 := if n < 10 then 0x30 + n else 0x57 + n

/-- The value of a hexadecimal digit in either case. -/
def hexValue? (b : UInt8) : Option UInt8 :=
  if 0x30 ≤ b ∧ b ≤ 0x39 then some (b - 0x30)
  else if 0x61 ≤ b ∧ b ≤ 0x66 then some (b - 0x57)
  else if 0x41 ≤ b ∧ b ≤ 0x46 then some (b - 0x37)
  else none

/-- The value of a character as a digit of a base of at most sixteen. -/
def digitIn? (base : Nat) (c : Char) : Option Nat :=
  if c.toNat < 0x80 then
    ((hexValue? (UInt8.ofNat c.toNat)).map UInt8.toNat).filter (· < base)
  else none

/-- The number that digits write; no digits write zero. -/
def numberIn? (base : Nat) (cs : List Char) : Option Nat :=
  (cs.mapM (digitIn? base)).map fun ds => ds.foldl (fun n d => n * base + d) 0

end GitRemote.Text
