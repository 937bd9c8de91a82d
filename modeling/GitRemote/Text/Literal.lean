import GitRemote.Text.Printable

/-!
# Quoted literals

How error messages show a name or a character that came from outside: in quotes, with the usual
one-letter escapes, and with the code point in braces for whatever is not printable.
-/

namespace GitRemote.Text

/-- The lower-case hexadecimal digits of a number. -/
def hexDigits (n : Nat) : String := String.ofList (Nat.toDigits 16 n)

/-- One character inside a literal that is quoted with `quote`. -/
def literalChar (quote c : Char) : String :=
  if c == '\x00' then "\\0"
  else if c == '\t' then "\\t"
  else if c == '\r' then "\\r"
  else if c == '\n' then "\\n"
  else if c == '\\' then "\\\\"
  else if c == quote then String.ofList ['\\', c]
  else if isPrintable c then String.ofList [c]
  else "\\u\x7b" ++ hexDigits c.toNat ++ "\x7d"

/-- A text as a quoted literal. -/
def literal (s : String) : String :=
  "\"" ++ String.join (s.toList.map (literalChar '"')) ++ "\""

/-- A character as a quoted literal. -/
def charLiteral (c : Char) : String := "'" ++ literalChar '\'' c ++ "'"

end GitRemote.Text
