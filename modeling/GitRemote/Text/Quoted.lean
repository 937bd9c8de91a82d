import GitRemote.Text.Utf8

/-!
# Quoted messages

How a message is written where one line of plain ASCII is wanted: as it is if nothing in it needs an
escape, else in double quotes with one-letter escapes and three octal digits for other bytes.
-/

namespace GitRemote.Text

/-- Whether a message with this character has to be quoted. -/
def needsQuoting (c : Char) : Bool :=
  c == '"' || c == '\\' || c.toNat < 0x20 || 0x7F ≤ c.toNat

/-- The character of a number below 128. -/
def asciiChar (n : Nat) : Char := Char.ofNat n

/-- A byte as a backslash and three octal digits. -/
def octalEscape (b : UInt8) : List Char :=
  ['\\', asciiChar (0x30 + b.toNat / 64), asciiChar (0x30 + b.toNat / 8 % 8),
    asciiChar (0x30 + b.toNat % 8)]

/-- A byte inside quotes. -/
def quoteByte (b : UInt8) : List Char :=
  if b = 0x22 then ['\\', '"']
  else if b = 0x5C then ['\\', '\\']
  else if b = 0x0A then ['\\', 'n']
  else if b = 0x09 then ['\\', 't']
  else if b = 0x0D then ['\\', 'r']
  else if b = 0x07 then ['\\', 'a']
  else if b = 0x08 then ['\\', 'b']
  else if b = 0x0C then ['\\', 'f']
  else if b = 0x0B then ['\\', 'v']
  else if 0x20 ≤ b ∧ b ≤ 0x7E then [asciiChar b.toNat]
  else octalEscape b

/-- The written form of a message. -/
def quoteMessage (s : String) : String :=
  if s.toList.any needsQuoting then
    String.ofList ('"' :: ((Utf8.encode s).flatMap quoteByte ++ ['"']))
  else s

end GitRemote.Text
