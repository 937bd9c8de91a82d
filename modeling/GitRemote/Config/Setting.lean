import GitRemote.Config.Double
import GitRemote.Text.Blank

/-!
# Settings

A setting as it stands in a file or in the environment, and what it means where a truth value, a
number or a text is wanted: each kind is taken for each other as far as that makes sense.
-/

namespace GitRemote.Config

/-- A value of a setting. -/
inductive Setting where
  | flag (b : Bool)
  | integer (n : Int)
  | double (d : Double)
  | text (s : String)
  /-- A list or a table. -/
  | compound
  deriving DecidableEq, Repr

namespace Setting

/-- The truth value that a word means. -/
def switch? (word : String) : Option Bool :=
  if ["true", "on", "yes"].contains word then some true
  else if ["false", "off", "no"].contains word then some false
  else none

/-- A setting as a truth value. -/
def flag? : Setting → Option Bool
  | .flag b => some b
  | .integer n => some (n != 0)
  | .double d => some (!d.isZero)
  | .text s =>
    let word := Text.lowerAscii s
    if word = "1" then some true else if word = "0" then some false else switch? word
  | .compound => none

/-- A setting as a number that is not negative. -/
def natural? : Setting → Option Nat
  | .flag b => some b.toNat
  | .integer n => if 0 ≤ n then some n.toNat else none
  | .double d => some (d.toNatural Text.wordBound)
  | .text s =>
    match switch? (Text.lowerAscii s) with
    | some b => some b.toNat
    | none => Text.natural? Text.wordBound s
  | .compound => none

/-- A setting as text. -/
def text? : Setting → Option String
  | .flag b => some (if b then "true" else "false")
  | .integer n => some (toString n)
  | .double d => some d.text
  | .text s => some s
  | .compound => none

/-- Two to the power 63, the bound of integers. -/
def integerBound : Nat := 9223372036854775808

/-- The setting that a text of the environment gives: a truth value, an integer or a number if it reads
as one. -/
def ofText (s : String) : Setting :=
  let word := Text.lowerAscii s
  if word = "true" then .flag true
  else if word = "false" then .flag false
  else
    match Text.integer? integerBound s with
    | some n => .integer n
    | none =>
      match Double.parse? s with
      | some d => .double d
      | none => .text s

end Setting

end GitRemote.Config
